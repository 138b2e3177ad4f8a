import Cheirismos.Flashing

/-! # Which requests reach the flash

The last check before an operation is performed compares the physical identity that an instrument
is configured under with the one that the dispatch expects of it.  A dispatch that expects another
one gets no further (`run_attends`): nothing is said that a flash would obey, and if there is a
receipt it is a rejection.

`Attends` is the judgement that shows this.  It also follows the connection of the session: when
the instrument is a Bus Pirate, every connection is to one (`Attached`). -/

namespace Cheirismos

open Process
open Nor (Passive)

namespace DeviceBackend

/-- The session is not connected, or it is to a Bus Pirate. -/
def Attached (c : Option Connected) : Prop := c = none ∨ OnBus c

theorem attached_bpio2 (adapter : Bpio2Adapter) : Attached (some (.bpio2 adapter)) :=
  Or.inr ⟨adapter, rfl⟩

/-- The dispatch expects this physical identity of the instrument. -/
def Recognised (identity : ArtifactDigest) (id : InstrumentId) (request : DispatchRequest) : Prop :=
  request.expectedInstrumentPhysicalIdentities.get? id = some identity

/-! ### Rules -/

section rules

variable {mode : AddressMode} {known : Prop} {α β : Type} {x : Session α} {c : Option Connected}

/-- Unless the instrument is `known`, a flash obeys no request of `x`; the session stays attached,
and `Q` holds of a result. -/
abbrev Attends (mode : AddressMode) (known : Prop) (x : Session α) (c : Option Connected)
    (Q : α → Prop) : Prop :=
  Action.Meets (F := hardware) x c (fun tr => ∀ e ∈ tr, known ∨ Passive mode e.request)
    (fun _ c' _ => Attached c') fun a c' _ => Attached c' ∧ Q a

namespace Attends

variable {Q R : α → Prop}

theorem weaken (h : Attends mode known x c R) (hQ : ∀ a, R a → Q a) : Attends mode known x c Q :=
  Action.Meets.weaken h (fun _ h => h) (fun _ _ _ _ h => h) fun a _ _ _ h => ⟨h.1, hQ a h.2⟩

protected theorem pure {a : α} (hc : Attached c) (hQ : Q a) :
    Attends mode known (pure a : Session α) c Q :=
  Action.Meets.pure (fun _ h => absurd h List.not_mem_nil) ⟨hc, hQ⟩

protected theorem throw {e : BackendError} (hc : Attached c) :
    Attends mode known (throw e : Session α) c Q :=
  Action.Meets.throw (fun _ h => absurd h List.not_mem_nil) hc

/-- One action after the other. -/
protected theorem bind {f : α → Session β} {Q : β → Prop} (h : Attends mode known x c R)
    (hf : ∀ a c₁, Attached c₁ → R a → Attends mode known (f a) c₁ Q) :
    Attends mode known (x >>= f) c Q := by
  refine Action.Meets.bind h fun a c₁ tr₁ htr₁ ha =>
    Action.Meets.weaken (hf a c₁ ha.1 ha.2) (fun tr htr e he => ?_) (fun _ _ _ _ h => h)
      fun _ _ _ _ h => h
  rcases List.mem_append.mp he with he | he
  · exact htr₁ e he
  · exact htr e he

section continuations

variable {f : α → Session β} {Q : β → Prop}

protected theorem reading {f : Option Connected → Session β} (hf : Attends mode known (f c) c Q) :
    Attends mode known ((MonadStateOf.get : Session (Option Connected)) >>= f) c Q :=
  Action.Meets.reading hf

protected theorem writing {c' : Option Connected} {f : PUnit → Session β}
    (hf : Attends mode known (f ⟨⟩) c' Q) :
    Attends mode known ((MonadStateOf.set c' : Session PUnit) >>= f) c Q :=
  Action.Meets.writing hf

protected theorem checked {r : Except BackendError α} (hc : Attached c)
    (hf : ∀ a, r = .ok a → Attends mode known (f a) c Q) :
    Attends mode known (Action.result r >>= f) c Q :=
  Action.Meets.checked (fun _ h => absurd h List.not_mem_nil) (fun _ _ => hc) hf

protected theorem refused {bad : Prop} [Decidable bad] {e : BackendError} {f : Unit → Session β}
    (hc : Attached c) (hf : ¬ bad → Attends mode known (f ()) c Q) :
    Attends mode known (Action.refuse bad e >>= f) c Q :=
  Action.Meets.refused (fun _ h => absurd h List.not_mem_nil) (fun _ => hc) hf

/-- A quiet action, and then the rest. -/
theorem after {operation : Operation} (hc : Attached c) (h : Quiet operation false Attached c x)
    (hf : ∀ a c₁, Attached c₁ → Attends mode known (f a) c₁ Q) :
    Attends mode known (x >>= f) c Q := by
  refine Attends.bind (R := fun _ => True) (Action.Meets.weaken h
    (fun _ htr e he => Or.inr (passive_of_observing (htr e he))) (fun _ _ _ _ h => ?_)
    fun _ _ _ _ h => ⟨?_, trivial⟩) fun a c₁ hc₁ _ => hf a c₁ hc₁
  · exact h.mpr hc
  · exact h.mpr hc

end continuations

/-- Whatever is done over a Bus Pirate, the session is attached to it. -/
protected theorem inside {adapter : Bpio2Adapter} {x : Action hardware Bpio2Adapter BackendError α}
    (h : Action.Asks (fun request => known ∨ Passive mode request) x) :
    Attends mode known (Action.inside (fun adapter => some (.bpio2 adapter)) adapter x) c
      fun _ => True :=
  Action.Meets.inside fun _ _ hr => ⟨h.runs hr, fun _ adapter _ => attached_bpio2 adapter,
    fun _ adapter _ => ⟨attached_bpio2 adapter, trivial⟩⟩

/-- How an action ended; a failure is known to be one. -/
protected theorem outcome {Q : Except BackendError α → Prop}
    (h : Attends mode known x c fun a => Q (.ok a)) (hE : ∀ e, Q (.error e)) :
    Attends mode known (Action.outcome x) c Q :=
  Action.Meets.outcome (Action.Meets.weaken h (fun _ h => h) (fun e _ _ _ h => ⟨h, hE e⟩)
    fun _ _ _ _ h => h)

end Attends

end rules

/-! ### Looking at the instrument -/

/-- The member that is found under a key is the one that was put there last. -/
theorem find?_insertMember (key : String) (value : Value) (members : List (String × Value))
    (k : String) : (insertMember key value members).find? (fun member => member.1 = k) =
      if key = k then some (key, value) else members.find? fun member => member.1 = k := by
  induction members with
  | nil => by_cases h : key = k <;> simp [insertMember, h]
  | cons member members ih =>
      obtain ⟨k', v⟩ := member
      unfold insertMember
      split
      · by_cases h : key = k <;> simp [h]
      · split
        · next heq => by_cases h : key = k <;> simp [← heq, h]
        · next hne =>
            rw [List.find?_cons, ih, List.find?_cons]
            by_cases h : key = k
            · subst h
              simp [Ne.symm hne]
            · simp [h]

variable [Crates] {mode : AddressMode} {known : Prop} {binding : DeviceBinding}
  {identity : ArtifactDigest} {c : Option Connected}

theorem connect_attends (operation : Operation) {config : Bpio2Config}
    (hconfig : binding.config = .bpio2 config) (hc : Attached c) :
    Attends mode known (connect binding) c fun connected =>
      ∃ adapter, connected = .bpio2 adapter := by
  have husb : Quiet operation false Attached c (verifyUsb binding.config) := verifyUsb_quiet
  unfold connect
  refine .after hc husb fun _ c₁ hc₁ => .reading ?_
  rcases hc₁ with rfl | ⟨adapter, rfl⟩
  · rw [hconfig]
    have hopen : Quiet operation false Attached none
        (Action.ask (F := hardware) (HardwareRequest.openSerial config.serial)) := .ask trivial
    refine Attends.bind (R := fun connected => connected = .bpio2 Bpio2Adapter.new) ?_ ?_
    · exact .after (Or.inl rfl) hopen fun _ _ hc => .checked hc fun _ _ => .pure hc rfl
    · rintro _ _ _ rfl
      exact .writing (.pure (attached_bpio2 _) ⟨_, rfl⟩)
  · exact .pure (attached_bpio2 adapter) ⟨adapter, rfl⟩

/-- An observation shows the configured identity. -/
theorem observe_attends (operation : Operation) (hc : Attached c)
    (hidentity : configuredPhysicalIdentity binding.config = .ok identity)
    {adapter : Bpio2Adapter} :
    Attends mode known (observe binding (.bpio2 adapter)) c fun observed =>
      textMember "physical_identity" observed.body = some identity.value := by
  have husb : Quiet operation false Attached c (verifyUsb binding.config) := verifyUsb_quiet
  have hasks : Action.Asks (Passive mode) (Bus.linked Bpio2Adapter.identify) :=
    Bus.identify_asks rfl
  unfold observe
  refine .checked hc fun configured hconfigured => .after hc husb fun usb c₁ hc₁ => ?_
  obtain rfl : configured = identity := Except.ok.inj (hconfigured.symm.trans hidentity)
  refine Attends.bind (R := fun _ => True) ?_ ?_
  · unfold observeConnected
    exact Attends.bind (.inside (hasks.mono fun _ h => Or.inr h)) fun _ _ hc _ =>
      .refused hc fun _ => .pure hc trivial
  · rintro ⟨observed, status, physical⟩ c₂ hc₂ _
    have hnow : Quiet operation false Attached c₂
        (Action.ask (F := hardware) HardwareRequest.now) := .ask trivial
    refine .refused hc₂ fun _ => .after hc₂ hnow fun _ _ hc₃ => .pure hc₃ ?_
    simp [textMember, Value.json, find?_insertMember, Value.digest, Value.asStr]

omit [Crates] in
theorem exists_operation : Nonempty Operation := ⟨.wait ⟨"target", by decide +kernel⟩ 0⟩

/-- An inspection says nothing that a flash would obey. -/
theorem inspect_attends {backend : DeviceBackend} {instrument : InstrumentId}
    (encode : Observation → Bytes) (hbinding : backend.sessions.get? instrument = some binding)
    {config : Bpio2Config} (hconfig : binding.config = .bpio2 config)
    (hidentity : configuredPhysicalIdentity binding.config = .ok identity) (hc : Attached c) :
    Attends mode False (inspect encode backend instrument) c fun _ => True := by
  obtain ⟨operation⟩ := exists_operation
  have hlook : Attends mode False (do
      let connected ← connect binding
      observe binding connected) c fun _ => True := by
    refine Attends.bind (connect_attends operation hconfig hc) ?_
    rintro _ c₁ hc₁ ⟨adapter, rfl⟩
    exact (observe_attends operation hc₁ hidentity).weaken
      fun _ _ => trivial
  unfold inspect
  rw [hbinding]
  refine .checked hc fun _ h => ?_
  cases h
  refine Attends.bind (R := fun _ => True) (.outcome hlook fun _ => trivial) ?_
  rintro (error | observation) c₁ hc₁ _
  · exact .writing (.throw (Or.inl rfl))
  · have hpublish : Quiet operation false Attached c₁
        (Action.ask (F := hardware) (HardwareRequest.publish (.bytes (encode observation))
          (.commissioning instrument))) := .ask trivial
    exact .after hc₁ hpublish fun _ _ hc₂ => .checked hc₂ fun _ _ => .pure hc₂ trivial

/-! ### Performing an operation -/

section run

variable {request : DispatchRequest} {artifacts : ArtifactResolver} {reconcile : Bool}
  {patience deadline : ℕ} {instrument : InstrumentId}
  (hidentity : configuredPhysicalIdentity binding.config = .ok identity)

include hidentity

/-- An instrument that passes the last check is the one that the dispatch expects. -/
theorem recognised_of_member {observed : Observation}
    (hobserved : textMember "physical_identity" observed.body = some identity.value)
    (hsame : textMember "physical_identity" observed.body =
      (request.expectedInstrumentPhysicalIdentities.get? instrument).map ArtifactDigest.value) :
    Recognised identity instrument request := by
  rw [hobserved] at hsame
  unfold Recognised
  cases hget : request.expectedInstrumentPhysicalIdentities.get? instrument with
  | none =>
      rw [hget] at hsame
      cases hsame
  | some expected =>
      rw [hget] at hsame
      have hvalue : identity.value = expected.value := Option.some.inj hsame
      cases identity
      cases expected
      cases hvalue
      rfl

theorem performReviewed_attends (hc : Attached c) {adapter : Bpio2Adapter} :
    Attends mode (Recognised identity instrument request)
      (performReviewed patience binding instrument request artifacts reconcile deadline
        (.bpio2 adapter)) c
      fun receipt => ¬ Recognised identity instrument request → receipt.state = .rejected := by
  unfold performReviewed
  refine Attends.bind (observe_attends request.operation hc hidentity)
    fun observed c₁ hc₁ hobserved => ?_
  split
  · exact .pure hc₁ fun _ => rfl
  · have hexpired : Quiet request.operation false Attached c₁ (interlocksExpired request) :=
      interlocksExpired_quiet
    refine .after hc₁ hexpired fun expired c₂ hc₂ => ?_
    split
    · exact .pure hc₂ fun _ => rfl
    · split
      · exact .pure hc₂ fun _ => rfl
      · next hsame =>
          have hknown := recognised_of_member hidentity hobserved (not_not.mp hsame)
          refine .reading (Attends.bind (R := fun _ => True) ?_ fun result c₃ hc₃ _ => ?_)
          · obtain ⟨adapter', hadapter⟩ :
                ∃ adapter', c₂.getD (.bpio2 adapter) = .bpio2 adapter' := by
              rcases hc₂ with rfl | ⟨adapter', rfl⟩
              · exact ⟨adapter, rfl⟩
              · exact ⟨adapter', rfl⟩
            rw [hadapter]
            exact .inside (.any (fun _ => Or.inl hknown) _)
          · have hpublish : Quiet request.operation false Attached c₃
                (publish request observed.sourceFingerprint result.body result.bytes) :=
              publish_quiet
            exact .after hc₃ hpublish fun _ _ hc₄ =>
              .pure hc₄ fun hunknown => absurd hknown hunknown

theorem onSession_attends {config : Bpio2Config} (hconfig : binding.config = .bpio2 config)
    (hc : Attached c) :
    Attends mode (Recognised identity instrument request)
      (onSession patience binding instrument request artifacts reconcile) c
      fun receipt => ¬ Recognised identity instrument request → receipt.state = .rejected := by
  unfold onSession
  split
  · exact .pure hc fun _ => rfl
  · split
    · exact .pure hc fun _ => rfl
    · have hdeadline : Quiet request.operation false Attached c (deadlineOf request) :=
        deadlineOf_quiet
      refine .after hc hdeadline fun deadline c₁ hc₁ => ?_
      cases deadline with
      | none => exact .pure hc₁ fun _ => rfl
      | some deadline =>
          have helapsed : Quiet request.operation false Attached c₁
              (Action.ask (F := hardware) HardwareRequest.elapsed) := .ask trivial
          refine .after hc₁ helapsed fun elapsed c₂ hc₂ => .refused hc₂ fun _ => ?_
          have hsession : Attends mode (Recognised identity instrument request)
              (session patience binding instrument request artifacts reconcile deadline) c₂
              fun receipt => ¬ Recognised identity instrument request →
                receipt.state = .rejected := by
            unfold session
            refine Attends.bind (connect_attends request.operation hconfig hc₂) ?_
            rintro _ c₃ hc₃ ⟨adapter, rfl⟩
            exact performReviewed_attends hidentity hc₃
          unfold guarded
          refine Attends.bind (R := fun r => ∀ receipt, r = .ok receipt →
            ¬ Recognised identity instrument request → receipt.state = .rejected)
            (.outcome (hsession.weaken fun a h receipt hr => ?_) fun _ _ h => (by cases h)) ?_
          · cases hr
            exact h
          · rintro (error | receipt) c₃ hc₃ h
            · exact .writing (.throw (Or.inl rfl))
            · exact .pure hc₃ (h receipt rfl)

/-- A run for a dispatch that does not expect the configured identity says nothing that a flash
would obey, and reports at most a rejection. -/
theorem run_attends {backend : DeviceBackend}
    (hinstrument : request.operation.instrument = some instrument)
    (hbinding : backend.sessions.get? instrument = some binding) {config : Bpio2Config}
    (hconfig : binding.config = .bpio2 config) (hc : Attached c) :
    Attends mode (Recognised identity instrument request)
      (run patience backend request artifacts reconcile) c
      fun receipt => ¬ Recognised identity instrument request → receipt.state = .rejected := by
  unfold run
  refine .refused hc fun _ => ?_
  split
  · next heq =>
      rw [heq] at hinstrument
      cases hinstrument
  · rw [hinstrument]
    refine .checked hc fun _ h => ?_
    cases h
    rw [hbinding]
    refine .checked hc fun _ h => ?_
    cases h
    exact onSession_attends hidentity hconfig hc

end run

end DeviceBackend

end Cheirismos
