import Cheirismos.Readiness

/-! # The simulator as a flash device

Whole runs of `instruments/simulator.rs`, with injected faults and with the store file written
successfully.

* **Devices.** A `Device` is a simulator and its store file; `Persists` says how the file answers.
  A `Run` opens the simulator, calls it any number of times in any order and may open it again in
  between.
* **Effects.** `Call.check` is what a call checks before it counts as an effect, and `Effects` what
  an effect makes of the state.  `performs_iff` says that the call does exactly this.
* **Faithfulness.** `Faithful` is what a flash device promises about one call; `Affected` says that
  the injected fault made a difference to the call.

`simulator_faithful` says that every call of every run is faithful and that every injected fault
affects at most one of them. -/

namespace Cheirismos.Simulator

open Process

/-! ### Calls -/

def injectFault (fault : SimulatorFault) : Link Unit := do
  let state ← get
  commit { state with fault := fault }

inductive Call where
  | injectFault (fault : SimulatorFault)
  | setRelay (relay : ℕ) (closed : Bool)
  | readFlash (offset length : ℕ)
  | eraseFlash (offset length : ℕ)
  | writeFlash (offset : ℕ) (bytes : Bytes)

abbrev Call.Output : Call → Type
  | .readFlash _ _ => Bytes
  | .injectFault _ | .setRelay _ _ | .eraseFlash _ _ | .writeFlash _ _ => Unit

def Call.body : (call : Call) → Link call.Output
  | .injectFault fault => Simulator.injectFault fault
  | .setRelay relay closed => Simulator.setRelay relay closed
  | .readFlash offset length => Simulator.readFlash offset length
  | .eraseFlash offset length => Simulator.eraseFlash offset length
  | .writeFlash offset bytes => Simulator.writeFlash offset bytes

/-! ### Devices -/

/-- A simulator and its store file. -/
structure Device where
  state : SimulatorState
  stored : Option SimulatorState

/-- How the store file answers. -/
inductive Persists : Option SimulatorState → Exchange hardware → Option SimulatorState → Prop
  | read (config : SimulatorConfig) (stored : Option SimulatorState) :
      Persists stored ⟨HardwareRequest.readStore config, some (.ok stored)⟩ stored
  | write (state : SimulatorState) (stored : Option SimulatorState) :
      Persists stored ⟨HardwareRequest.writeStore state, some (.ok ())⟩ (some state)

/-- A call ends with `r`. -/
def Performs {α : Type} (x : Link α) (d : Device) (r : Except InstrumentError α) (d' : Device) :
    Prop :=
  Action.Performs Persists x d.state d.stored r d'.state d'.stored

/-- The simulator opens on the store file. -/
def Opens (config : SimulatorConfig) (stored : Option SimulatorState) (d : Device) : Prop :=
  Action.Performs Persists (openStore config) () stored (.ok d.state) () d.stored

structure Event where
  call : Call
  before : SimulatorState
  outcome : Except InstrumentError call.Output
  after : SimulatorState

/-- The calls of a run, the last one first, and where they led. -/
inductive Run (config : SimulatorConfig) : List Event → Device → Prop
  | opened {d : Device} (h : Opens config none d) : Run config [] d
  | reopened {events : List Event} {d d' : Device} (h : Run config events d)
      (ho : Opens config d.stored d') : Run config events d'
  | called {events : List Event} {d d' : Device} {call : Call}
      {r : Except InstrumentError call.Output} (h : Run config events d)
      (hc : Performs call.body d r d') : Run config (⟨call, d.state, r, d'.state⟩ :: events) d'

/-! ### Faithfulness -/

/-- The flash has these bytes from the offset on, and is otherwise as it was. -/
structure Programs (flash : Bytes) (offset : ℕ) (bytes flash' : Bytes) : Prop where
  range : window flash' offset bytes.length = bytes
  others : ∀ i, i < offset ∨ offset + bytes.length ≤ i → flash'[i]? = flash[i]?

/-- No bit that was clear is set. -/
structure Lowers (flash flash' : Bytes) : Prop where
  length : flash'.length = flash.length
  bits : ∀ (i : ℕ) (b b' : UInt8), flash[i]? = some b → flash'[i]? = some b' →
    ∀ k, b'.toNat.testBit k = true → b.toNat.testBit k = true

/-- How many bytes of a write with this length the fault lets through, if it interrupts it. -/
def permits : SimulatorFault → ℕ → Option ℕ
  | .none, _ => none
  | .interruptNextEffect, _ => some 0
  | .interruptAfterBytes permitted, length => some (min permitted length)

/-- The error is about the range, about a relay, or about a bit that would be raised. -/
def Refusal (e : InstrumentError) : Prop :=
  (∃ requested limit, e = .protocolLimit requested limit) ∨
    (∃ response, e = .invalidRelayResponse response) ∨ e = .deviceRejected norRule

def Event.error (e : Event) : Option InstrumentError :=
  match e.outcome with
  | .ok _ => none
  | .error err => some err

/-- What a flash device promises about a call. -/
structure Faithful (e : Event) : Prop where
  written : ∀ offset bytes, e.call = .writeFlash offset bytes → e.error = none →
    Programs e.before.flash offset bytes e.after.flash
  cut : ∀ offset bytes err, e.call = .writeFlash offset bytes → e.error = some err →
    ¬ Refusal err → ∃ count, permits e.before.fault bytes.length = some count ∧
      Programs e.before.flash offset (bytes.take count) e.after.flash
  refused : ∀ err, e.error = some err → Refusal err → e.after = e.before
  lowers : (∀ offset length, e.call ≠ .eraseFlash offset length) →
    Lowers e.before.flash e.after.flash
  erased : ∀ offset length, e.call = .eraseFlash offset length → e.error = none →
    Programs e.before.flash offset (List.replicate length 0xFF) e.after.flash
  halved : ∀ offset length err, e.call = .eraseFlash offset length → e.error = some err →
    ¬ Refusal err → e.before.fault ≠ .none ∧
      Programs e.before.flash offset (List.replicate (length / 2) 0xFF) e.after.flash

/-- The same state without the fault. -/
def calm (state : SimulatorState) : SimulatorState := { state with fault := .none }

/-- Without the fault the call would have ended otherwise. -/
def Affected (e : Event) : Prop :=
  ¬ ∃ d, Performs e.call.body ⟨calm e.before, some (calm e.before)⟩ e.outcome d ∧
    calm d.state = calm e.after

/-! ### The flash -/

section flash

variable {flash bytes : Bytes} {offset : ℕ}

theorem overlay_getElem?_outside (h : offset + bytes.length ≤ flash.length) {i : ℕ}
    (hi : i < offset ∨ offset + bytes.length ≤ i) :
    (overlay flash offset bytes)[i]? = flash[i]? := by
  have htake : (flash.take offset).length = offset := by
    rw [List.length_take]
    omega
  unfold overlay
  rcases hi with hi | hi
  · rw [List.append_assoc, List.getElem?_append_left (by omega), List.getElem?_take_of_lt hi]
  · rw [List.getElem?_append_right (by rw [List.length_append]; omega), List.length_append, htake,
      List.getElem?_drop]
    congr 1
    omega

theorem overlay_getElem?_inside (h : offset + bytes.length ≤ flash.length) {j : ℕ}
    (hj : j < bytes.length) : (overlay flash offset bytes)[offset + j]? = bytes[j]? := by
  have htake : (flash.take offset).length = offset := by
    rw [List.length_take]
    omega
  unfold overlay
  rw [List.append_assoc, List.getElem?_append_right (by omega), htake, Nat.add_sub_cancel_left,
    List.getElem?_append_left hj]

theorem overlay_programs (h : offset + bytes.length ≤ flash.length) :
    Programs flash offset bytes (overlay flash offset bytes) where
  range := by
    have htake : (flash.take offset).length = offset := by
      rw [List.length_take]
      omega
    unfold window overlay
    rw [List.append_assoc, List.drop_left' htake, List.take_left' rfl]
  others _ hi := overlay_getElem?_outside h hi

theorem overlay_nil : overlay flash offset [] = flash := by
  unfold overlay
  rw [List.append_nil, List.length_nil, Nat.add_zero, List.take_append_drop]

/-- Clearing the bits that the request has clear leaves the request, if it raises none. -/
theorem and_of_clear {b r : UInt8} (h : r &&& ~~~b = 0) : b &&& r = r := by
  have hbits : r.toBitVec &&& ~~~b.toBitVec = 0#8 := congrArg UInt8.toBitVec h
  refine UInt8.toBitVec_inj.mp (BitVec.eq_of_getLsbD_eq fun i hi => ?_)
  have hbit := congrArg (BitVec.getLsbD · i) hbits
  simp only [BitVec.getLsbD_and, BitVec.getLsbD_not, BitVec.getLsbD_zero, hi, decide_true,
    Bool.true_and] at hbit
  rw [UInt8.toBitVec_and, BitVec.getLsbD_and]
  cases hr : r.toBitVec.getLsbD i with
  | false => rw [Bool.and_false]
  | true =>
      rw [hr, Bool.true_and, Bool.not_eq_false'] at hbit
      rw [hbit, Bool.and_true]

theorem testBit_of_clear {b r : UInt8} (h : r &&& ~~~b = 0) {k : ℕ}
    (hk : r.toNat.testBit k = true) : b.toNat.testBit k = true := by
  rw [← and_of_clear h, UInt8.toNat_and, Nat.testBit_and, Bool.and_eq_true] at hk
  exact hk.1

theorem raisesBit_false {existing requested : Bytes} (h : raisesBit existing requested = false)
    {j : ℕ} {b r : UInt8} (hb : existing[j]? = some b) (hr : requested[j]? = some r) :
    r &&& ~~~b = 0 := by
  have hmem : (b, r) ∈ List.zip existing requested :=
    List.mem_of_getElem? (List.getElem?_zip_eq_some.mpr ⟨hb, hr⟩)
  by_contra hne
  have hany : raisesBit existing requested = true :=
    List.any_eq_true.mpr ⟨(b, r), hmem, decide_eq_true hne⟩
  rw [h] at hany
  cases hany

/-- Programming a part of a request that raises no bit is assigning it. -/
theorem programNor_take (h : offset + bytes.length ≤ flash.length)
    (hraise : raisesBit (window flash offset bytes.length) bytes = false) {count : ℕ}
    (hcount : count ≤ bytes.length) :
    programNor (window flash offset count) (bytes.take count) = bytes.take count := by
  unfold programNor window at *
  refine List.ext_getElem? fun j => ?_
  rw [List.getElem?_zipWith]
  by_cases hj : j < count
  · have hb : flash[offset + j]? = some flash[offset + j] :=
      List.getElem?_eq_getElem (by omega)
    have hr : bytes[j]? = some bytes[j] := List.getElem?_eq_getElem (by omega)
    have hclear : bytes[j] &&& ~~~flash[offset + j] = 0 := by
      refine raisesBit_false hraise (j := j) ?_ hr
      rw [List.getElem?_take_of_lt (by omega), List.getElem?_drop, hb]
    rw [List.getElem?_take_of_lt hj, List.getElem?_take_of_lt hj, List.getElem?_drop, hb, hr]
    exact congrArg some (and_of_clear hclear)
  · rw [List.getElem?_take_eq_none (by omega), List.getElem?_take_eq_none (by omega)]

/-- So it sets no bit. -/
theorem overlay_lowers (h : offset + bytes.length ≤ flash.length)
    (hraise : raisesBit (window flash offset bytes.length) bytes = false) {count : ℕ}
    (hcount : count ≤ bytes.length) : Lowers flash (overlay flash offset (bytes.take count)) := by
  have hlength : (bytes.take count).length = count := by
    rw [List.length_take]
    omega
  have hin : offset + (bytes.take count).length ≤ flash.length := by omega
  refine ⟨overlay_length hin, fun i b b' hb hb' k hk => ?_⟩
  by_cases hi : i < offset ∨ offset + (bytes.take count).length ≤ i
  · rw [overlay_getElem?_outside hin hi, hb, Option.some.injEq] at hb'
    rw [hb']
    exact hk
  · obtain ⟨j, rfl⟩ : ∃ j, i = offset + j := ⟨i - offset, by omega⟩
    rw [overlay_getElem?_inside hin (by omega), List.getElem?_take_of_lt (by omega)] at hb'
    refine testBit_of_clear (raisesBit_false hraise (j := j) ?_ hb') hk
    rw [window, List.getElem?_take_of_lt (by omega), List.getElem?_drop, hb]

theorem Lowers.refl (flash : Bytes) : Lowers flash flash := by
  refine ⟨rfl, fun i b b' hb hb' k hk => ?_⟩
  rw [hb, Option.some.injEq] at hb'
  rw [hb']
  exact hk

end flash

/-! ### What a call does -/

/-- The range is in the flash, and no bit would be raised. -/
def writeCheck (state : SimulatorState) (offset : ℕ) (bytes : Bytes) :
    Except InstrumentError Unit := do
  range state offset bytes.length
  if raisesBit (window state.flash offset bytes.length) bytes = true then
    .error (.deviceRejected norRule)
  else .ok ()

/-- What a call checks before it counts as an effect. -/
def Call.check : Call → SimulatorState → Except InstrumentError Unit
  | .injectFault _, _ => .ok ()
  | .setRelay relay _, state =>
      if state.relayClosed.length ≤ relay then
        .error (.invalidRelayResponse ("relay index " ++ toString relay ++ " outside 0..4"))
      else .ok ()
  | .readFlash offset length, state | .eraseFlash offset length, state => range state offset length
  | .writeFlash offset bytes, state => writeCheck state offset bytes

/-- The state in memory and in the store file. -/
def saved (state : SimulatorState) : Device := ⟨state, some state⟩

/-- What a call that passed its checks makes of a device. -/
inductive Effects (d : Device) : (call : Call) → Except InstrumentError call.Output → Device → Prop
  | injected (fault : SimulatorFault) :
      Effects d (.injectFault fault) (.ok ()) (saved { d.state with fault := fault })
  | actuated (relay : ℕ) (closed : Bool) (hfault : d.state.fault ≠ .interruptNextEffect) :
      Effects d (.setRelay relay closed) (.ok ()) (saved { begun d.state with
        relayClosed := d.state.relayClosed.set relay closed
        relays := (List.length_set ..).trans d.state.relays })
  | left (relay : ℕ) (closed : Bool) (hfault : d.state.fault = .interruptNextEffect) :
      Effects d (.setRelay relay closed)
        (.error (.deviceRejected "simulated interruption before relay actuation"))
        (saved (interrupted (begun d.state)))
  | read (offset length : ℕ) :
      Effects d (.readFlash offset length) (.ok (window d.state.flash offset length)) d
  | erased (offset length : ℕ) (hfault : d.state.fault = .none) :
      Effects d (.eraseFlash offset length) (.ok ()) (saved (withFlash (begun d.state)
        (overlay d.state.flash offset (List.replicate length 0xFF))))
  | halved (offset length : ℕ) (hfault : d.state.fault ≠ .none) :
      Effects d (.eraseFlash offset length)
        (.error (.deviceRejected "simulated interrupted erase"))
        (saved (withFlash (interrupted (begun d.state))
          (overlay d.state.flash offset (List.replicate (length / 2) 0xFF))))
  | written (offset : ℕ) (bytes : Bytes) (hfault : d.state.fault = .none) :
      Effects d (.writeFlash offset bytes) (.ok ()) (saved (withFlash (begun d.state)
        (overlay d.state.flash offset bytes)))
  | refrained (offset : ℕ) (bytes : Bytes) (hfault : d.state.fault = .interruptNextEffect) :
      Effects d (.writeFlash offset bytes)
        (.error (.deviceRejected "simulated interruption before flash write"))
        (saved (interrupted (begun d.state)))
  | cut (offset : ℕ) (bytes : Bytes) (permitted : ℕ)
      (hfault : d.state.fault = .interruptAfterBytes permitted) :
      Effects d (.writeFlash offset bytes)
        (.error (.deviceRejected ("simulated interruption after " ++
          toString (min permitted bytes.length) ++ " bytes")))
        (saved (withFlash (interrupted (begun d.state))
          (overlay d.state.flash offset (bytes.take (min permitted bytes.length)))))

section performs

variable {d d' : Device}

theorem writing_iff {state : SimulatorState} {stored : Option SimulatorState}
    {P : Except InstrumentError Unit → Option SimulatorState → Prop} :
    (∃ v stored', Persists stored ⟨HardwareRequest.writeStore state, some v⟩ stored' ∧ P v stored') ↔
      P (.ok ()) (some state) := by
  constructor
  · rintro ⟨v, stored', hstep, h⟩
    cases hstep
    exact h
  · exact fun h => ⟨.ok (), some state, .write state stored, h⟩

theorem reading_iff {config : SimulatorConfig} {stored : Option SimulatorState}
    {P : Except InstrumentError (Option SimulatorState) → Option SimulatorState → Prop} :
    (∃ v stored', Persists stored ⟨HardwareRequest.readStore config, some v⟩ stored' ∧
      P v stored') ↔ P (.ok stored) stored := by
  constructor
  · rintro ⟨v, stored', hstep, h⟩
    cases hstep
    exact h
  · exact fun h => ⟨.ok stored, stored, .read config stored, h⟩

theorem commit_iff {state : SimulatorState} {r : Except InstrumentError Unit} :
    Performs (commit state) d r d' ↔ r = .ok () ∧ d' = saved state := by
  obtain ⟨s', stored'⟩ := d'
  refine Action.Performs.set_bind_iff.trans (Action.Performs.ask_bind_iff.trans ?_)
  refine writing_iff.trans (Action.Performs.result_iff.trans ?_)
  simp only [saved, Device.mk.injEq]

theorem abort_iff {state : SimulatorState} {detail : String} {r : Except InstrumentError Unit} :
    Performs (abort state detail) d r d' ↔ r = .error (.deviceRejected detail) ∧ d' = saved state := by
  obtain ⟨s', stored'⟩ := d'
  refine Action.Performs.bind_iff.trans ⟨?_, ?_⟩
  · rintro (⟨e, hcommit, _⟩ | ⟨_, s₁, stored₁, hcommit, hthrow⟩)
    · have hok := (@commit_iff d ⟨_, _⟩ state _ |>.mp hcommit).1
      cases hok
    · obtain ⟨_, hd⟩ := (@commit_iff d ⟨s₁, stored₁⟩ state _).mp hcommit
      obtain ⟨rfl, rfl, rfl⟩ := Action.Performs.throw_iff.mp hthrow
      exact ⟨rfl, hd⟩
  · rintro ⟨rfl, hd⟩
    cases hd
    exact Or.inr ⟨(), state, some state, (@commit_iff d (saved state) state _).mpr ⟨rfl, rfl⟩,
      Action.Performs.throw_iff.mpr ⟨rfl, rfl, rfl⟩⟩

theorem checked_iff {α β : Type} {e : Except InstrumentError α} {f : α → Link β}
    {r : Except InstrumentError β} :
    Performs (Action.result e >>= f) d r d' ↔
      (∃ err, e = .error err ∧ r = .error err ∧ d' = d) ∨ ∃ a, e = .ok a ∧ Performs (f a) d r d' := by
  obtain ⟨s, stored⟩ := d
  obtain ⟨s', stored'⟩ := d'
  refine Action.Performs.result_bind_iff.trans (or_congr ?_ Iff.rfl)
  simp only [Device.mk.injEq]

/-- After its checks the call has its effect. -/
theorem passed_iff {call : Call} {f : Unit → Link call.Output}
    {r : Except InstrumentError call.Output}
    (h : call.check d.state = .ok () → (Performs (f ()) d r d' ↔ Effects d call r d')) :
    Performs (Action.result (call.check d.state) >>= f) d r d' ↔
      (∃ err, call.check d.state = .error err ∧ r = .error err ∧ d' = d) ∨
        call.check d.state = .ok () ∧ Effects d call r d' := by
  refine checked_iff.trans (or_congr Iff.rfl ⟨?_, ?_⟩)
  · rintro ⟨_, hcheck, hperforms⟩
    exact ⟨hcheck, (h hcheck).mp hperforms⟩
  · rintro ⟨hcheck, heffects⟩
    exact ⟨(), hcheck, (h hcheck).mpr heffects⟩

theorem injectFault_iff {fault : SimulatorFault} {r : Except InstrumentError Unit} :
    Performs (commit { d.state with fault := fault }) d r d' ↔
      Effects d (.injectFault fault) r d' := by
  refine commit_iff.trans ⟨?_, fun h => ?_⟩
  · rintro ⟨rfl, rfl⟩
    exact .injected fault
  · cases h
    exact ⟨rfl, rfl⟩

theorem setRelay_iff {relay : ℕ} {closed : Bool} {r : Except InstrumentError Unit} :
    Performs (if d.state.fault = .interruptNextEffect then
        abort (interrupted (begun d.state)) "simulated interruption before relay actuation"
      else commit { begun d.state with
        relayClosed := d.state.relayClosed.set relay closed
        relays := (List.length_set ..).trans d.state.relays }) d r d' ↔
      Effects d (.setRelay relay closed) r d' := by
  split_ifs with hfault
  · refine abort_iff.trans ⟨?_, fun h => ?_⟩
    · rintro ⟨rfl, rfl⟩
      exact .left relay closed hfault
    · cases h with
      | actuated _ _ hne => exact absurd hfault hne
      | left => exact ⟨rfl, rfl⟩
  · refine commit_iff.trans ⟨?_, fun h => ?_⟩
    · rintro ⟨rfl, rfl⟩
      exact .actuated relay closed hfault
    · cases h with
      | actuated => exact ⟨rfl, rfl⟩
      | left _ _ heq => exact absurd heq hfault

theorem readFlash_iff {offset length : ℕ} {r : Except InstrumentError Bytes} :
    Performs (pure (window d.state.flash offset length)) d r d' ↔
      Effects d (.readFlash offset length) r d' := by
  obtain ⟨s, stored⟩ := d
  obtain ⟨s', stored'⟩ := d'
  refine Action.Performs.pure_iff.trans ⟨?_, fun h => ?_⟩
  · rintro ⟨rfl, hs, ht⟩
    cases hs
    cases ht
    exact .read offset length
  · cases h
    exact ⟨rfl, rfl, rfl⟩

theorem eraseFlash_iff {offset length : ℕ} {r : Except InstrumentError Unit} :
    Performs (if d.state.fault = .none then
        commit (withFlash (begun d.state)
          (overlay (begun d.state).flash offset (List.replicate length 0xFF)))
      else
        abort (withFlash (interrupted (begun d.state))
          (overlay (begun d.state).flash offset (List.replicate (length / 2) 0xFF)))
          "simulated interrupted erase") d r d' ↔
      Effects d (.eraseFlash offset length) r d' := by
  split_ifs with hfault
  · refine commit_iff.trans ⟨?_, fun h => ?_⟩
    · rintro ⟨rfl, rfl⟩
      exact .erased offset length hfault
    · cases h with
      | erased => exact ⟨rfl, rfl⟩
      | halved _ _ hne => exact absurd hfault hne
  · refine abort_iff.trans ⟨?_, fun h => ?_⟩
    · rintro ⟨rfl, rfl⟩
      exact .halved offset length hfault
    · cases h with
      | erased _ _ heq => exact absurd heq hfault
      | halved => exact ⟨rfl, rfl⟩

theorem writeCheck_ok {state : SimulatorState} {offset : ℕ} {bytes : Bytes}
    (h : writeCheck state offset bytes = .ok ()) :
    range state offset bytes.length = .ok () ∧
      raisesBit (window state.flash offset bytes.length) bytes = false := by
  unfold writeCheck at h
  cases hrange : range state offset bytes.length with
  | error err =>
      rw [hrange] at h
      cases h
  | ok _ =>
      rw [hrange] at h
      refine ⟨rfl, Bool.eq_false_iff.mpr fun hraise => ?_⟩
      simp only [bind, Except.bind, hraise, if_true, reduceCtorEq] at h

theorem range_bound {state : SimulatorState} {offset length : ℕ}
    (h : range state offset length = .ok ()) : offset + length ≤ state.flash.length := by
  unfold range at h
  split_ifs at h with h₁ h₂
  omega

section write

variable {offset : ℕ} {bytes : Bytes} {r : Except InstrumentError Unit}

theorem writeFlash_none (hcheck : writeCheck d.state offset bytes = .ok ())
    (hfault : d.state.fault = .none) :
    Performs (commit (withFlash (begun d.state) (overlay (begun d.state).flash offset
        (programNor (window (begun d.state).flash offset bytes.length) bytes)))) d r d' ↔
      Effects d (.writeFlash offset bytes) r d' := by
  obtain ⟨hrange, hraise⟩ := writeCheck_ok hcheck
  have hall := programNor_take (range_bound hrange) hraise le_rfl
  rw [List.take_length] at hall
  rw [show (begun d.state).flash = d.state.flash from rfl, hall]
  refine commit_iff.trans ⟨?_, fun h => ?_⟩
  · rintro ⟨rfl, rfl⟩
    exact .written offset bytes hfault
  · cases h with
    | written => exact ⟨rfl, rfl⟩
    | refrained _ _ h => cases hfault.symm.trans h
    | cut _ _ _ h => cases hfault.symm.trans h

theorem writeFlash_next (hfault : d.state.fault = .interruptNextEffect) :
    Performs (abort (interrupted (begun d.state)) "simulated interruption before flash write")
        d r d' ↔ Effects d (.writeFlash offset bytes) r d' := by
  refine abort_iff.trans ⟨?_, fun h => ?_⟩
  · rintro ⟨rfl, rfl⟩
    exact .refrained offset bytes hfault
  · cases h with
    | written _ _ h => cases hfault.symm.trans h
    | refrained => exact ⟨rfl, rfl⟩
    | cut _ _ _ h => cases hfault.symm.trans h

theorem writeFlash_after {permitted : ℕ} (hcheck : writeCheck d.state offset bytes = .ok ())
    (hfault : d.state.fault = .interruptAfterBytes permitted) :
    Performs (abort (withFlash (interrupted (begun d.state)) (overlay (begun d.state).flash offset
        (programNor (window (begun d.state).flash offset (min permitted bytes.length))
          (bytes.take (min permitted bytes.length)))))
        ("simulated interruption after " ++ toString (min permitted bytes.length) ++ " bytes"))
        d r d' ↔
      Effects d (.writeFlash offset bytes) r d' := by
  obtain ⟨hrange, hraise⟩ := writeCheck_ok hcheck
  rw [show (begun d.state).flash = d.state.flash from rfl,
    programNor_take (range_bound hrange) hraise (min_le_right _ _)]
  refine abort_iff.trans ⟨?_, fun h => ?_⟩
  · rintro ⟨rfl, rfl⟩
    exact .cut offset bytes permitted hfault
  · cases h with
    | written _ _ h => cases hfault.symm.trans h
    | refrained _ _ h => cases hfault.symm.trans h
    | cut _ _ _ h =>
        cases hfault.symm.trans h
        exact ⟨rfl, rfl⟩

/-- Two checks in a row are one. -/
theorem checks_iff {e : Except InstrumentError Unit} {bad : Prop} [Decidable bad]
    {err : InstrumentError} {f : Unit → Link Unit} :
    Performs (Action.result e >>= fun _ => Action.refuse bad err >>= f) d r d' ↔
      Performs (Action.result (e >>= fun _ => if bad then .error err else .ok ()) >>= f) d r d' := by
  cases e <;> exact Iff.rfl

end write

/-- A call does exactly what its effect is, after its checks. -/
theorem performs_iff {call : Call} {r : Except InstrumentError call.Output} :
    Performs call.body d r d' ↔
      (∃ err, call.check d.state = .error err ∧ r = .error err ∧ d' = d) ∨
        call.check d.state = .ok () ∧ Effects d call r d' := by
  refine Action.Performs.get_bind_iff.trans ?_
  cases call with
  | injectFault fault =>
      refine injectFault_iff.trans ⟨fun h => Or.inr ⟨rfl, h⟩, ?_⟩
      rintro (⟨_, h, _⟩ | ⟨_, h⟩)
      · cases h
      · exact h
  | setRelay relay closed =>
      refine @passed_iff d d' (.setRelay relay closed) _ r fun _ => ?_
      exact setRelay_iff
  | readFlash offset length =>
      refine @passed_iff d d' (.readFlash offset length) _ r fun _ => ?_
      exact readFlash_iff
  | eraseFlash offset length =>
      refine @passed_iff d d' (.eraseFlash offset length) _ r fun _ => ?_
      exact eraseFlash_iff
  | writeFlash offset bytes =>
      refine checks_iff.trans (@passed_iff d d' (.writeFlash offset bytes) _ r fun hcheck => ?_)
      cases hfault : d.state.fault with
      | none => exact writeFlash_none hcheck hfault
      | interruptNextEffect => exact writeFlash_next hfault
      | interruptAfterBytes permitted => exact writeFlash_after hcheck hfault

/-- A simulator opens with what its store file has, or with erased flash. -/
theorem opens_iff {config : SimulatorConfig} {stored : Option SimulatorState} :
    Opens config stored d ↔
      d = saved (stored.getD (initial config.flashBytes)) ∧
        (stored.getD (initial config.flashBytes)).flash.length = config.flashBytes := by
  obtain ⟨state, file⟩ := d
  refine Action.Performs.ask_bind_iff.trans (reading_iff.trans ?_)
  have hchecked : ∀ found : SimulatorState,
      Action.Performs Persists (Action.refuse (found.flash.length ≠ config.flashBytes)
        (.invalidSimulatorStore ("existing flash is " ++ toString found.flash.length ++
          " bytes, requested " ++ toString config.flashBytes)) >>= fun _ =>
            (pure found : Action hardware Unit InstrumentError SimulatorState))
        () (some found) (.ok state) () file ↔
      (⟨state, file⟩ : Device) = saved found ∧ found.flash.length = config.flashBytes := by
    intro found
    refine Action.Performs.refuse_bind_iff.trans ⟨?_, ?_⟩
    · rintro (⟨_, hr, _⟩ | ⟨hsize, hpure⟩)
      · cases hr
      · obtain ⟨hr, _, rfl⟩ := Action.Performs.pure_iff.mp hpure
        cases hr
        exact ⟨rfl, not_not.mp hsize⟩
    · rintro ⟨hd, hsize⟩
      cases hd
      exact Or.inr ⟨not_not.mpr hsize, Action.Performs.pure_iff.mpr ⟨rfl, rfl, rfl⟩⟩
  cases stored with
  | some stored => exact hchecked stored
  | none =>
      refine Iff.trans ?_ (hchecked (initial config.flashBytes))
      exact Action.Performs.ask_bind_iff.trans writing_iff

end performs

/-! ### Every call is faithful -/

theorem check_refusal {call : Call} {state : SimulatorState} {err : InstrumentError}
    (h : call.check state = .error err) : Refusal err := by
  have hrange : ∀ {offset length}, range state offset length = .error err → Refusal err := by
    intro offset length hr
    unfold range at hr
    split_ifs at hr <;> cases hr <;> exact Or.inl ⟨_, _, rfl⟩
  cases call with
  | injectFault fault => cases h
  | setRelay relay closed =>
      unfold Call.check at h
      dsimp only at h
      split_ifs at h
      cases h
      exact Or.inr (Or.inl ⟨_, rfl⟩)
  | readFlash offset length => exact hrange h
  | eraseFlash offset length => exact hrange h
  | writeFlash offset bytes =>
      change writeCheck state offset bytes = .error err at h
      unfold writeCheck at h
      cases hr : range state offset bytes.length with
      | error e =>
          rw [hr] at h
          cases h
          exact hrange hr
      | ok _ =>
          rw [hr] at h
          simp only [bind, Except.bind] at h
          split_ifs at h
          cases h
          exact Or.inr (Or.inr rfl)

theorem not_refusal {detail : String} (h : detail ≠ norRule) : ¬ Refusal (.deviceRejected detail) := by
  rintro (⟨_, _, he⟩ | ⟨_, he⟩ | he)
  · cases he
  · cases he
  · exact h (InstrumentError.deviceRejected.inj he)

theorem cut_ne_norRule (count : ℕ) :
    "simulated interruption after " ++ toString count ++ " bytes" ≠ norRule := by
  intro h
  have hhead := congrArg (fun text : String => text.toList.head?) h
  simp only [String.toList_append] at hhead
  exact absurd hhead (by simp [norRule])

theorem Event.error_none {call : Call} {before after : SimulatorState}
    {r : Except InstrumentError call.Output} (h : (⟨call, before, r, after⟩ : Event).error = none) :
    ∃ a, r = .ok a := by
  cases r with
  | ok a => exact ⟨a, rfl⟩
  | error e => cases h

theorem Event.error_some {call : Call} {before after : SimulatorState}
    {r : Except InstrumentError call.Output} {err : InstrumentError}
    (h : (⟨call, before, r, after⟩ : Event).error = some err) : r = .error err := by
  cases r with
  | ok a => cases h
  | error e =>
      cases h
      rfl

/-- A call that leaves the flash alone. -/
theorem Faithful.still {e : Event} (herase : ∀ offset length, e.call ≠ .eraseFlash offset length)
    (hwrite : ∀ offset bytes, e.call ≠ .writeFlash offset bytes)
    (hflash : e.after.flash = e.before.flash)
    (herror : ∀ err, e.error = some err → ¬ Refusal err) : Faithful e where
  written offset bytes hcall _ := absurd hcall (hwrite offset bytes)
  cut offset bytes _ hcall _ _ := absurd hcall (hwrite offset bytes)
  refused err he hr := absurd hr (herror err he)
  lowers _ := by
    rw [hflash]
    exact .refl _
  erased offset length hcall _ := absurd hcall (herase offset length)
  halved offset length _ hcall _ _ := absurd hcall (herase offset length)

section calls

variable {d d' : Device}

/-- An erase that sets a part of its range, which lies in the flash. -/
theorem Faithful.erasing {offset length count : ℕ} {before after : SimulatorState}
    {r : Except InstrumentError Unit} (hin : offset + length ≤ before.flash.length)
    (hcount : count ≤ length)
    (hflash : after.flash = overlay before.flash offset (List.replicate count 0xFF))
    (hok : r = .ok () → count = length)
    (herror : ∀ err, r = .error err → ¬ Refusal err ∧ before.fault ≠ .none ∧ count = length / 2) :
    Faithful ⟨.eraseFlash offset length, before, r, after⟩ := by
  have hprograms : Programs before.flash offset (List.replicate count 0xFF) after.flash := by
    rw [hflash]
    refine overlay_programs ?_
    rw [List.length_replicate]
    omega
  refine ⟨fun _ _ h => (by cases h), fun _ _ _ h => (by cases h), ?_, ?_, ?_, ?_⟩
  · exact fun err he hrefusal => absurd hrefusal (herror err (Event.error_some he)).1
  · exact fun h => absurd rfl (h offset length)
  · intro offset' length' hcall he
    cases hcall
    obtain ⟨_, hr⟩ := Event.error_none he
    rw [← hok hr]
    exact hprograms
  · intro offset' length' err hcall he _
    cases hcall
    obtain ⟨_, hfault, hhalf⟩ := herror err (Event.error_some he)
    rw [← hhalf]
    exact ⟨hfault, hprograms⟩

/-- A write that programs a part of its bytes, which raise no bit. -/
theorem Faithful.writing {offset count : ℕ} {bytes : Bytes} {before after : SimulatorState}
    {r : Except InstrumentError Unit} (hcheck : writeCheck before offset bytes = .ok ())
    (hcount : count ≤ bytes.length)
    (hflash : after.flash = overlay before.flash offset (bytes.take count))
    (hok : r = .ok () → count = bytes.length)
    (herror : ∀ err, r = .error err →
      ¬ Refusal err ∧ permits before.fault bytes.length = some count) :
    Faithful ⟨.writeFlash offset bytes, before, r, after⟩ := by
  obtain ⟨hrange, hraise⟩ := writeCheck_ok hcheck
  have hin := range_bound hrange
  have hprograms : Programs before.flash offset (bytes.take count) after.flash := by
    rw [hflash]
    refine overlay_programs ?_
    rw [List.length_take]
    omega
  refine ⟨?_, ?_, ?_, ?_, fun _ _ h => (by cases h), fun _ _ _ h => (by cases h)⟩
  · intro offset' bytes' hcall he
    cases hcall
    obtain ⟨_, hr⟩ := Event.error_none he
    rw [hok hr, List.take_length] at hprograms
    exact hprograms
  · intro offset' bytes' err hcall he _
    cases hcall
    exact ⟨count, (herror err (Event.error_some he)).2, hprograms⟩
  · exact fun err he hrefusal => absurd hrefusal (herror err (Event.error_some he)).1
  · intro _
    rw [hflash]
    exact overlay_lowers hin hraise hcount

/-- Every call is faithful, whatever the state it is made in. -/
theorem performs_faithful {call : Call} {r : Except InstrumentError call.Output}
    (h : Performs call.body d r d') : Faithful ⟨call, d.state, r, d'.state⟩ := by
  rcases performs_iff.mp h with ⟨err, hcheck, rfl, rfl⟩ | ⟨hcheck, heffects⟩
  · -- a refused call leaves everything as it was
    have hrefusal : Refusal err := check_refusal hcheck
    refine ⟨fun _ _ _ he => (by cases he), ?_, fun _ _ _ => rfl, fun _ => .refl _,
      fun _ _ _ he => (by cases he), ?_⟩
    · intro _ _ err' _ he hnot
      cases he
      exact absurd hrefusal hnot
    · intro _ _ err' _ he hnot
      cases he
      exact absurd hrefusal hnot
  · cases heffects with
    | injected fault =>
        exact .still (fun _ _ h => by cases h) (fun _ _ h => by cases h) rfl fun _ h => by cases h
    | actuated relay closed =>
        exact .still (fun _ _ h => by cases h) (fun _ _ h => by cases h) rfl fun _ h => by cases h
    | left relay closed =>
        refine .still (fun _ _ h => by cases h) (fun _ _ h => by cases h) rfl fun err he => ?_
        cases he
        exact not_refusal (by decide)
    | read offset length =>
        exact .still (fun _ _ h => by cases h) (fun _ _ h => by cases h) rfl fun _ h => by cases h
    | erased offset length hfault =>
        exact .erasing (range_bound hcheck) le_rfl rfl (fun _ => rfl) fun _ h => by cases h
    | halved offset length hfault =>
        refine .erasing (range_bound hcheck) (Nat.div_le_self _ 2) rfl (fun h => by cases h) ?_
        intro err he
        cases he
        exact ⟨not_refusal (by decide), hfault, rfl⟩
    | written offset bytes hfault =>
        refine .writing hcheck le_rfl ?_ (fun _ => rfl) fun _ h => by cases h
        rw [List.take_length]
        rfl
    | refrained offset bytes hfault =>
        refine @Faithful.writing offset 0 bytes _ _ _ hcheck (Nat.zero_le _) ?_ (fun h => by cases h) ?_
        · rw [List.take_zero, overlay_nil]
          rfl
        · intro err he
          cases he
          exact ⟨not_refusal (by decide), by rw [hfault, permits]⟩
    | cut offset bytes permitted hfault =>
        refine .writing hcheck (min_le_right _ _) rfl (fun h => by cases h) ?_
        intro err he
        cases he
        exact ⟨not_refusal (cut_ne_norRule _), by rw [hfault, permits]⟩

/-! ### Faults -/

theorem check_calm (call : Call) (state : SimulatorState) :
    call.check (calm state) = call.check state := by
  cases call <;> rfl

/-- A call that a fault affects takes the fault. -/
theorem Affected.fault {call : Call} {r : Except InstrumentError call.Output}
    {state : SimulatorState} (h : Performs call.body (saved state) r d')
    (ha : Affected ⟨call, state, r, d'.state⟩) : state.fault ≠ .none ∧ d'.state.fault = .none := by
  constructor
  · intro hfault
    have hcalm : calm state = state := by
      unfold calm
      rw [← hfault]
    refine ha ⟨d', ?_, rfl⟩
    change Performs call.body (saved (calm state)) r d'
    rw [hcalm]
    exact h
  · by_contra hkept
    refine ha ?_
    rcases performs_iff.mp h with ⟨err, hcheck, hr, rfl⟩ | ⟨hcheck, heffects⟩
    · have hrefused := (@performs_iff (saved (calm state)) (saved (calm state)) call r).mpr
        (Or.inl ⟨err, (check_calm call state).trans hcheck, hr, rfl⟩)
      exact ⟨saved (calm state), hrefused, rfl⟩
    · cases heffects with
      | injected fault => exact ⟨_, performs_iff.mpr (Or.inr ⟨rfl, .injected fault⟩), rfl⟩
      | read offset length =>
          have hread := (@performs_iff (saved (calm state)) (saved (calm state)) _ _).mpr
            (Or.inr ⟨(check_calm _ state).trans hcheck, .read offset length⟩)
          exact ⟨saved (calm state), hread, rfl⟩
      | actuated | left | erased | halved | written | refrained | cut => exact absurd rfl hkept

/-- Only an injection makes a fault. -/
theorem Performs.fault {call : Call} {r : Except InstrumentError call.Output}
    (h : Performs call.body d r d') (hcall : ∀ fault, call ≠ .injectFault fault)
    (hfault : d.state.fault = .none) : d'.state.fault = .none := by
  rcases performs_iff.mp h with ⟨err, hcheck, hr, rfl⟩ | ⟨hcheck, heffects⟩
  · exact hfault
  · cases heffects with
    | injected fault => exact absurd rfl (hcall fault)
    | read => exact hfault
    | actuated | left | erased | halved | written | refrained | cut => rfl

theorem Performs.persisted {call : Call} {r : Except InstrumentError call.Output}
    (h : Performs call.body d r d') (hd : d = saved d.state) : d' = saved d'.state := by
  rcases performs_iff.mp h with ⟨err, hcheck, hr, rfl⟩ | ⟨hcheck, heffects⟩
  · exact hd
  · cases heffects with
    | read => exact hd
    | injected | actuated | left | erased | halved | written | refrained | cut => rfl

end calls

/-! ### Runs -/

section runs

variable {config : SimulatorConfig} {events : List Event} {d : Device}

/-- The store file always has the state. -/
theorem Run.persisted (h : Run config events d) : d = saved d.state := by
  induction h with
  | opened h =>
      rw [(opens_iff.mp h).1]
      rfl
  | reopened h ho ih =>
      rw [(opens_iff.mp ho).1]
      rfl
  | called h hc ih => exact hc.persisted ih

/-- Opening the simulator again changes nothing. -/
theorem Run.reopens (h : Run config events d) {d' : Device} (ho : Opens config d.stored d') :
    d' = d := by
  have hstored : d.stored = some d.state := congrArg Device.stored h.persisted
  rw [(opens_iff.mp ho).1, hstored, Option.getD_some]
  exact h.persisted.symm

theorem Run.faithful (h : Run config events d) : ∀ e ∈ events, Faithful e := by
  induction h with
  | opened h => exact fun e he => absurd he List.not_mem_nil
  | reopened h ho ih => exact ih
  | called h hc ih =>
      intro e he
      rcases List.mem_cons.mp he with rfl | he
      · exact performs_faithful hc
      · exact ih e he

/-- Among calls without an injection at most one is affected, and the fault is gone after it. -/
theorem Run.once (h : Run config events d) : ∀ es older, events = es ++ older →
    (∀ e ∈ es, ∀ fault, e.call ≠ .injectFault fault) →
      es.Pairwise (fun e e' => ¬ (Affected e ∧ Affected e')) ∧
      ((∃ e ∈ es, Affected e) → d.state.fault = .none) ∧
      (older = [] → d.state.fault = .none ∧ ∀ e ∈ es, ¬ Affected e) := by
  induction h with
  | opened h =>
      intro es older hes _
      obtain ⟨rfl, rfl⟩ := List.append_eq_nil_iff.mp hes.symm
      rw [(opens_iff.mp h).1]
      exact ⟨.nil, fun _ => rfl, fun _ => ⟨rfl, fun e he => absurd he List.not_mem_nil⟩⟩
  | reopened h ho ih =>
      rw [h.reopens ho]
      exact ih
  | @called events d d' call r h hc ih =>
      intro es older hes hcalls
      rcases List.cons_eq_append_iff.mp hes with ⟨rfl, rfl⟩ | ⟨es', rfl, rfl⟩
      · exact ⟨.nil, fun ⟨e, he, _⟩ => absurd he List.not_mem_nil, fun h => by cases h⟩
      · obtain ⟨hpairs, hgone, hclean⟩ :=
          ih es' older rfl fun e he => hcalls e (List.mem_cons_of_mem _ he)
        have hcall := hcalls _ List.mem_cons_self
        have hsaved : Performs call.body (saved d.state) r d' := by
          rw [← h.persisted]
          exact hc
        -- a call is affected only if the fault is there before it, and then not after it
        have hfresh : d.state.fault = .none → ¬ Affected ⟨call, d.state, r, d'.state⟩ :=
          fun hfault ha => (ha.fault hsaved).1 hfault
        refine ⟨.cons (fun e he ⟨ha, ha'⟩ => hfresh (hgone ⟨e, he, ha'⟩) ha) hpairs, ?_, ?_⟩
        · rintro ⟨e, he, ha⟩
          rcases List.mem_cons.mp he with rfl | he
          · exact (ha.fault hsaved).2
          · exact hc.fault hcall (hgone ⟨e, he, ha⟩)
        · intro holder
          obtain ⟨hfault, hnone⟩ := hclean holder
          refine ⟨hc.fault hcall hfault, fun e he ha => ?_⟩
          rcases List.mem_cons.mp he with rfl | he
          · exact hfresh hfault ha
          · exact hnone e he ha

/-- The simulator is a faithful flash device: every call of every run is faithful, calls before the
first injection are not affected, and among the calls after an injection and before the next one at
most one is. -/
theorem simulator_faithful (h : Run config events d) :
    (∀ e ∈ events, Faithful e) ∧
      ∀ es older, events = es ++ older → (∀ e ∈ es, ∀ fault, e.call ≠ .injectFault fault) →
        es.Pairwise (fun e e' => ¬ (Affected e ∧ Affected e')) ∧
          (older = [] → ∀ e ∈ es, ¬ Affected e) := by
  refine ⟨h.faithful, fun es older hes hcalls => ?_⟩
  obtain ⟨hpairs, _, hclean⟩ := h.once es older hes hcalls
  exact ⟨hpairs, fun holder => (hclean holder).2⟩

end runs

open Rig in
/-- A write that is cut off after one byte. -/
theorem simulator_faithful_rig : ∃ events d, Run simulatorConfig events d ∧ events.length = 2 ∧
    d.state.flash = [0xFF, 0x12, 0xFF, 0xFF] ∧ (∀ e ∈ events, Faithful e) ∧
      ∀ es older, events = es ++ older → (∀ e ∈ es, ∀ fault, e.call ≠ .injectFault fault) →
        es.Pairwise (fun e e' => ¬ (Affected e ∧ Affected e')) ∧
          (older = [] → ∀ e ∈ es, ¬ Affected e) := by
  have hopen : Run simulatorConfig [] (saved (initial 4)) := .opened (opens_iff.mpr ⟨rfl, rfl⟩)
  have hinject := hopen.called
    (performs_iff.mpr (Or.inr ⟨rfl, .injected (.interruptAfterBytes 1)⟩))
  have hwrite := hinject.called
    (performs_iff.mpr (Or.inr ⟨by decide, .cut 1 [0x12, 0x34] 1 rfl⟩))
  obtain ⟨hfaithful, honce⟩ := simulator_faithful hwrite
  exact ⟨_, _, hwrite, rfl, by decide, hfaithful, honce⟩

end Cheirismos.Simulator
