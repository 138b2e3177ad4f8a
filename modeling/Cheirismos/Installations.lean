import Cheirismos.Recognitions
import Cheirismos.Tenures
import Cheirismos.Workshops

/-! # The daemon and a flash

The daemon together with one of its instruments, a Bus Pirate, and the flash behind it: each call of
the backend that names the instrument is a job of a `Workshop`, which runs exchange by exchange
while the daemon serves other calls, is cut off when its deadline passes, and ends with the daemon.
Jobs take turns, as `DeviceSession` is locked; inspections of the instrument are jobs too.

`flash_completed` is what all the parts are for.  A step that is on record as completed has left the
flash as it was reviewed to, and the flash stays so until somebody claims the instrument again. -/

namespace Cheirismos

open Process

/-! ### What an operation asks of the flash -/

/-- The range of the operation is erased, or it holds an artifact of the digest. -/
def Operation.Satisfied [Platform] (memory : ℕ → UInt8) : Operation → Prop
  | .flashErase _ _ offset length =>
      Nor.contents memory offset.toNat length.toNat = List.replicate length.toNat 0xFF
  | .flashWrite _ _ offset source length | .flashVerify _ _ offset source length =>
      Platform.sha256 (Nor.contents memory offset.toNat length.toNat) = source
  | _ => True

/-- The resolver reads the artifact store, in some state of it. -/
def ReadsStore [Platform] (artifacts : ArtifactResolver) : Prop :=
  ∃ (store : ArtifactStore) (fault : Option EvidenceError), artifacts = store.read fault

section satisfied

variable [Platform] {artifacts : ArtifactResolver} {memory : ℕ → UInt8}

theorem sourceBytes_digest (hreads : ReadsStore artifacts) {digest : ArtifactDigest}
    {length : UInt32} {bytes : Bytes} (h : sourceBytes artifacts digest length = .ok bytes) :
    Platform.sha256 bytes = digest := by
  obtain ⟨store, fault, rfl⟩ := hreads
  unfold sourceBytes at h
  split at h
  · cases h
  · next artifact hread =>
      split at h
      · cases h
      · cases h
        obtain ⟨_, hdigest, _⟩ := ArtifactStore.read_ok hread
        exact artifact.verified.trans hdigest

/-- A range with the wanted contents satisfies its operation. -/
theorem satisfied_of_wanted (hreads : ReadsStore artifacts) {operation : Operation}
    {offset : UInt64} {length : UInt32} (hrange : flashRange operation = some (offset, length))
    (h : flashWanted artifacts operation = .ok (Nor.contents memory offset.toNat length.toNat)) :
    operation.Satisfied memory := by
  cases operation
  case flashErase =>
    cases hrange
    exact (Except.ok.inj h).symm
  case flashWrite =>
    cases hrange
    exact sourceBytes_digest hreads h
  case flashVerify =>
    cases hrange
    exact sourceBytes_digest hreads h
  all_goals cases hrange

/-- Only operations with a range ask something of the flash. -/
theorem satisfied_of_no_range {operation : Operation} (h : flashRange operation = none) :
    operation.Satisfied memory := by
  cases operation <;> trivial

end satisfied

/-! ### Installations -/

/-- A flash behind a Bus Pirate of the backend.  `encode` is `serde_json::to_vec`, and `identity` is
what `DeviceBackend::open` has found the instrument to be configured as. -/
structure Installation [Crates] where
  patience : ℕ
  encode : Observation → Bytes
  backend : DeviceBackend
  instrument : InstrumentId
  binding : DeviceBinding
  profile : Bus.FlashProfile
  identity : ArtifactDigest
  bound : backend.sessions.get? instrument = some binding
  qualified : Bus.qualifiedFlashGeometry binding = .ok profile
  identified : configuredPhysicalIdentity binding.config = .ok identity

namespace Installation

variable [Crates] (I : Installation)

/-- The lease key of the instrument. -/
def key : String := (PhysicalResource.instrument I.identity).key

/-- The request calls the backend with a dispatch for the instrument. -/
def Serves (r : Request) (dispatch : DispatchRequest) (reconcile : Bool) : Prop :=
  r.dispatched = some (dispatch, reconcile) ∧ dispatch.operation.instrument = some I.instrument

/-- What is reported of a run whose deadline has passed. -/
def expired : Except BackendError OperationReceipt :=
  .error (.timeout "operation deadline expired; session discarded, effect may be incomplete")

/-- The runs of the backend over the session of the instrument, against the flash. -/
abbrev workshop : Workshop machine where
  tools := hardware
  Device := Nor.State
  move := Nor.chip I.profile.geometry
  Memory := Option Connected
  blank := none
  Outcome := Except BackendError OperationReceipt
  cutOff := expired
  hosts r := ∃ dispatch reconcile, I.Serves r dispatch reconcile
  job r c p := ∃ dispatch reconcile artifacts, I.Serves r dispatch reconcile ∧
    ReadsStore artifacts ∧
    p = (DeviceBackend.run I.patience I.backend dispatch artifacts reconcile).start c
  chore c p := p = ((DeviceBackend.inspect I.encode I.backend I.instrument).start c).bind fun r =>
    .pure (expired, r.2)
  gives o i := i.receipt = o

abbrev Config : Type := I.workshop.Config daemon

/-- The request expects the instrument to be what it is. -/
def Owns (r : Request) : Prop :=
  ∃ dispatch reconcile, r.dispatched = some (dispatch, reconcile) ∧
    DeviceBackend.Recognised I.identity I.instrument dispatch

/-- An outcome that reports completion is right about the flash. -/
def Truthful (r : Request) (o : Except BackendError OperationReceipt) (s : Nor.State) : Prop :=
  ∀ dispatch reconcile observation, I.Serves r dispatch reconcile →
    o = .ok (.completed observation) → dispatch.operation.Satisfied s.memory

/-- The answer is to a call of the latest use of the instrument. -/
def Stands (c : daemon.Config) (e : Event machine) : Prop :=
  ∃ u : Use, u.Calls e ∧ u.Latest I.key c.history

/-! ### What each run keeps -/

section contract

variable {I} {r : Request} {dispatch : DispatchRequest} {reconcile : Bool}

theorem Serves.inj {dispatch' : DispatchRequest} {reconcile' : Bool}
    (h : I.Serves r dispatch reconcile) (h' : I.Serves r dispatch' reconcile') :
    dispatch' = dispatch ∧ reconcile' = reconcile := by
  obtain ⟨rfl, rfl⟩ := Prod.mk.inj (Option.some.inj (h'.1.symm.trans h.1))
  exact ⟨rfl, rfl⟩

theorem Serves.recognised (h : I.Serves r dispatch reconcile) (ho : I.Owns r) :
    DeviceBackend.Recognised I.identity I.instrument dispatch := by
  obtain ⟨dispatch', reconcile', hd, hrec⟩ := ho
  obtain ⟨rfl, rfl⟩ := Prod.mk.inj (Option.some.inj (hd.symm.trans h.1))
  exact hrec

/-- What a run says and leaves behind, whatever it runs against. -/
theorem attends {artifacts : ArtifactResolver} {c : Option Connected}
    (h : I.Serves r dispatch reconcile) (hc : DeviceBackend.Attached c) :
    DeviceBackend.Attends I.profile.geometry.addressMode (I.Owns r)
      (DeviceBackend.run I.patience I.backend dispatch artifacts reconcile) c
      fun receipt => ¬ I.Owns r → receipt.state = .rejected := by
  obtain ⟨config, hconfig⟩ := DeviceBackend.config_of_qualified I.qualified
  have howns : DeviceBackend.Recognised I.identity I.instrument dispatch ↔ I.Owns r :=
    ⟨fun hrec => ⟨dispatch, reconcile, h.1, hrec⟩, h.recognised⟩
  rw [← howns]
  exact DeviceBackend.run_attends I.identified h.2 I.bound hconfig hc

/-- A run that reports completion has left the flash as its operation asks. -/
theorem completes {artifacts : ArtifactResolver} {c c' : Option Connected}
    (h : I.Serves r dispatch reconcile) (hreads : ReadsStore artifacts)
    (hc : DeviceBackend.Attached c) {tr : List (Exchange hardware)} {observation : Observation}
    (hr : ((DeviceBackend.run I.patience I.backend dispatch artifacts reconcile).start c).Runs tr
      (some (.ok (.completed observation), c'))) {s s' : Nor.State}
    (ht : Tracks (Nor.chip I.profile.geometry) s tr s') :
    dispatch.operation.Satisfied s'.memory := by
  cases hrange : flashRange dispatch.operation with
  | none => exact satisfied_of_no_range hrange
  | some range =>
      obtain ⟨offset, length⟩ := range
      obtain ⟨_, hreport⟩ := DeviceBackend.reports hrange h.2 I.bound I.qualified hc hr ht
      have hachieved := (hreport _ _ rfl).achieved fun hstate => by cases hstate
      obtain ⟨_, hwanted⟩ := hachieved.complete_iff.mp rfl
      exact satisfied_of_wanted hreads hrange hwanted

/-- An inspection leaves the flash as it is. -/
theorem inspects {c : Option Connected} (hc : DeviceBackend.Attached c)
    {tr : List (Exchange hardware)}
    {o : Option (Except BackendError Observation × Option Connected)}
    (hr : ((DeviceBackend.inspect I.encode I.backend I.instrument).start c).Runs tr o)
    {s s' : Nor.State} (ht : Tracks (Nor.chip I.profile.geometry) s tr s') :
    s' = s ∧ ∀ r c', o = some (r, c') → DeviceBackend.Attached c' := by
  obtain ⟨config, hconfig⟩ := DeviceBackend.config_of_qualified I.qualified
  obtain ⟨hpassive, herror, hok⟩ :=
    DeviceBackend.inspect_attends I.encode I.bound hconfig I.identified hc tr o hr
  refine ⟨Action.Drives.tracks_still Nor.chip_passive
    (fun x hx => (hpassive x hx).resolve_left id) ht, ?_⟩
  rintro (e | observation) c' rfl
  · exact herror e c' rfl
  · exact (hok observation c' rfl).1

theorem contract : Workshop.Contract I.workshop I.Owns DeviceBackend.Attached I.Truthful where
  blank := Or.inl rfl
  cutOff r s dispatch reconcile observation _ h := by cases h
  memory := by
    rintro r c _ tr o c' ⟨dispatch, reconcile, artifacts, hserves, _, rfl⟩ hc hr
    obtain ⟨_, herror, hok⟩ := attends hserves hc tr _ hr
    cases o with
    | error e => exact herror e c' rfl
    | ok receipt => exact (hok receipt c' rfl).1
  done := by
    rintro r c _ tr o c' s s' ⟨dispatch, reconcile, artifacts, hserves, hreads, rfl⟩ hc _ hr ht
    rintro dispatch' reconcile' observation hserves' rfl
    obtain ⟨rfl, rfl⟩ := hserves.inj hserves'
    exact completes hserves hreads hc hr ht
  harmless := by
    rintro r c _ tr o s s' ⟨dispatch, reconcile, artifacts, hserves, _, rfl⟩ hc hforeign hr ht
    obtain ⟨hpassive, _, hok⟩ := attends hserves hc tr _ hr
    refine ⟨Action.Drives.tracks_still Nor.chip_passive
      (fun x hx => (hpassive x hx).resolve_left hforeign) ht, ?_⟩
    rintro o' c' rfl s'' dispatch' reconcile' observation _ rfl
    cases (hok _ c' rfl).2 hforeign
  chore := by
    rintro c _ tr o s s' rfl hc hr ht
    rcases Program.runs_bind hr with ⟨rfl, hcut⟩ | ⟨⟨r, c₁⟩, tr₁, tr₂, rfl, hended, hrest⟩
    · exact ⟨(inspects hc hcut ht).1, fun _ _ h => by cases h⟩
    · obtain ⟨rfl, ho⟩ := Program.runs_pure hrest
      rw [List.append_nil] at ht
      obtain ⟨hstill, hvalid⟩ := inspects hc hended ht
      refine ⟨hstill, ?_⟩
      rintro o' c' rfl
      cases ho _ rfl
      exact hvalid r c₁ rfl

end contract

/-! ### Whose the instrument is -/

section owners

variable {I} {c c' : daemon.Config} {e : Event machine}

/-- Whoever waits for the instrument has claimed a use of it that is under way. -/
theorem owner (h : Reachable c) {t : ℕ} {r : Request} (hw : I.workshop.Waits c t r)
    (ho : I.Owns r) :
    ∃ u a claim base, c.state.store.Busy u a ∧ a.LeaseKey I.key ∧ (claim :: base) <:+ c.history ∧
      claim.thread = t ∧ u.Claims claim base := by
  obtain ⟨⟨dispatch, reconcile, hserves⟩, k, ht⟩ := hw
  obtain ⟨u, a, claim, base, hb, hcarries, hin, hthread, hc, _⟩ := h.carrying ht hserves.1
  exact ⟨u, a, claim, base, hb, hcarries.leaseKey (hserves.recognised ho), hin, hthread, hc⟩

theorem exclusive : Workshop.Exclusive I.workshop daemon I.Owns := by
  intro c h t r t' r' hw ho hw' ho'
  obtain ⟨u, a, claim, base, hb, hk, hin, rfl, hc⟩ := owner h hw ho
  obtain ⟨u', a', claim', base', hb', hk', hin', rfl, hc'⟩ := owner h hw' ho'
  obtain rfl := (Reachable.good h).occupies_inj ⟨a, hb, hk⟩ ⟨a', hb', hk'⟩
  obtain ⟨rfl, _⟩ := Use.Claims.unique (Reachable.history h) hin hin' hc hc'
  rfl

theorem frees : Workshop.Frees I.workshop daemon I.Owns I.Stands where
  nobody := by
    rintro c e h he ⟨dispatch, reconcile, hserves⟩ ho ⟨u, hu, hlatest⟩ t r hw ho'
    obtain ⟨⟨dispatch', reconcile', hserves'⟩, k, ht⟩ := hw
    obtain ⟨older, hin⟩ := exists_suffix_of_mem he
    obtain ⟨v, a, hv, hb, hcarries⟩ := Reachable.carried h hin hserves.1
    obtain rfl := hu.inj hv
    exact hlatest.alone h hin hu hb (hcarries.leaseKey (hserves.recognised ho)) ht hserves'.1
      fun b hb => hb.leaseKey (hserves'.recognised ho')
  back := by
    rintro c c' e h hs he ⟨u, hu, hlatest⟩
    have hrun : daemon.Run c c' := Relation.ReflTransGen.single hs
    exact ⟨u, hu, hlatest.back (Reachable.history (Process.Service.Reachable.step h hs))
      hrun.history_suffix he hu⟩

/-- A call that was answered as achieved is right about the flash as long as no other use of the
instrument has been claimed since. -/
theorem achieved {x : I.Config} (h : Workshop.Reachable x) {u : Use} {older : List (Event machine)}
    (hin : (e :: older) <:+ x.base.history) (hu : u.Achieved e) {a : AttemptRecord}
    {dispatch : DispatchRequest} {reconcile : Bool}
    (hserves : I.Serves e.request dispatch reconcile)
    (hb : e.before.store.Busy u a)
    (hlatest : a.LeaseKey I.key → u.Latest I.key x.base.history) :
    dispatch.operation.Satisfied x.device.memory := by
  obtain ⟨observation, hreceipt⟩ := hu.answer
  have he := hin.subset List.mem_cons_self
  obtain ⟨o, hgives, htruth⟩ := Workshop.Reachable.kept contract exclusive frees h he
    ⟨dispatch, reconcile, hserves⟩ fun ho => by
      obtain ⟨v, b, hv, hb', hcarries⟩ := Reachable.carried h.base hin hserves.1
      obtain rfl := hu.calls.inj hv
      have hsame := hb.evolve (.refl _) hb'
      refine ⟨u, hu.calls, hlatest ((AttemptRecord.leaseKey_iff hsame I.key).mp ?_)⟩
      exact hcarries.leaseKey (hserves.recognised ho)
  exact htruth dispatch reconcile observation hserves (hgives.symm.trans hreceipt)

end owners

/-- The reviewed operation of the attempt's step. -/
def Reviewed (s : Store) (a : AttemptRecord) (operation : Operation) : Prop :=
  ∃ plan ∈ s.plans, plan.id = a.plan ∧ ∃ planned,
    plan.operations[a.operationIndex]? = some planned ∧ planned.operation = operation

section completed

variable {I} {x x' : I.Config} {a : AttemptRecord} {operation : Operation}

/-- A call for the attempt carries the reviewed operation of its step. -/
theorem serves_of_reviewed (h : Reachable x.base) {e : Event machine} {older : List (Event machine)}
    (hin : (e :: older) <:+ x.base.history) {u : Use} (hu : u.Calls e) {b : AttemptRecord}
    (hb : e.before.store.Busy u b) {s : Store} (hevo : Evolves e.before.store s)
    (hid : b.identity = a.identity) (hop : Reviewed s a operation)
    (hinstrument : operation.instrument = some I.instrument) :
    ∃ dispatch reconcile, I.Serves e.request dispatch reconcile ∧
      dispatch.operation = operation := by
  obtain ⟨dispatch, reconcile, hd⟩ := hu.dispatched
  obtain ⟨v, b', hv, hb', hcarries⟩ := h.carried hin hd
  obtain rfl := hu.inj hv
  obtain ⟨plan, hm, hplan, planned, hstep, rfl⟩ := hop
  have hsame : a.identity = b'.identity := hid.symm.trans (hb'.evolve (.refl _) hb)
  have hoperation := (hcarries.evolve hevo hsame).planned hm hplan hstep
  exact ⟨dispatch, reconcile, ⟨hd, hoperation ▸ hinstrument⟩, hoperation⟩

/-- A completed attempt has left the flash as it asks for, unless the instrument was claimed again
since its use. -/
theorem completed_satisfied (h : Workshop.Reachable x) (ha : x.base.state.store.Attempt a)
    (hstate : a.state = .completed) (hop : Reviewed x.base.state.store a operation)
    (hinstrument : operation.instrument = some I.instrument) :
    ∃ u e, e ∈ x.base.history ∧ u.Achieved e ∧ (∃ b, e.before.store.Busy u b ∧ b.id = a.id) ∧
      (u.Latest I.key x.base.history → operation.Satisfied x.device.memory) := by
  obtain ⟨u, e, older, b, hin, hachieved, hb, hid⟩ := Reachable.completed h.base ha hstate
  have hevo := (Reachable.history h.base).evolves_before hin
  obtain ⟨dispatch, reconcile, hserves, rfl⟩ :=
    serves_of_reviewed h.base hin hachieved.calls hb hevo hid hop hinstrument
  exact ⟨u, e, hin.subset List.mem_cons_self, hachieved, ⟨b, hb, AttemptRecord.id_eq hid⟩,
    fun hlatest => achieved h hin hachieved hserves hb fun _ => hlatest⟩

omit [Crates] in
/-- A call of the backend changes neither the store nor the artifacts. -/
theorem perform_dispatched [Platform] {r : Request} {dispatch : DispatchRequest} {reconcile : Bool}
    (h : r.dispatched = some (dispatch, reconcile)) (i : Choice) (w : World) :
    (perform r i w).2 = w := by
  cases r <;> first | rfl | cases h

/-- When the store changes, the daemon has moved and the flash has not. -/
theorem served_of_changed (hs : Workshop.Step x x')
    (hchanged : x'.base.state.store ≠ x.base.state.store) :
    daemon.Step x.base x'.base ∧ x'.device = x.device := by
  cases hs with
  | serve hstep _ => exact ⟨hstep, rfl⟩
  | @answer t r k o i hhosts _ _ _ =>
      obtain ⟨dispatch, reconcile, hd, _⟩ := hhosts
      exact absurd (congrArg World.store (perform_dispatched hd i x.base.state)) hchanged
  | crash _ => exact absurd rfl hchanged
  | _ => exact absurd rfl hchanged

/-- When an attempt becomes completed, the flash is as it asks for. -/
theorem completing_satisfied (h : Workshop.Reachable x) (hs : Workshop.Step x x')
    (hnew : ¬ x.base.state.store.Attempt a) (ha : x'.base.state.store.Attempt a)
    (hstate : a.state = .completed) (hop : Reviewed x'.base.state.store a operation)
    (hinstrument : operation.instrument = some I.instrument) :
    operation.Satisfied x'.device.memory := by
  have hist := Reachable.history h.base
  obtain ⟨hstep, hstill⟩ := served_of_changed hs fun hsame => hnew (hsame ▸ ha)
  have hnext : Reachable x'.base := Process.Service.Reachable.step h.base hstep
  rcases Reachable.step_cases h.base hstep with ⟨hsame, _⟩ | ⟨t, r, i, hsanctioned, hafter, hpast⟩
  · exact absurd (hsame ▸ ha) hnew
  · obtain ⟨call, hr | hsame, hc⟩ := hsanctioned.change hist hist.continuous i
    · rw [← hafter] at hc
      rcases hc.completes (History.good hist) ha hstate with hold | ⟨u, b, hcompletes, hb, hid⟩
      · exact absurd hold hnew
      -- the backend has answered that the use was achieved
      have hlast : ((⟨t, r, i, x.base.state⟩ : Event machine) :: x.base.history) <:+
          x'.base.history := by
        rw [hpast]
      obtain ⟨e, he, hachieved⟩ := hnext.achieved hlast hr hcompletes
      obtain ⟨older, hin⟩ := exists_suffix_of_mem he
      obtain ⟨b', hb'⟩ := Reachable.busy h.base hin hachieved.calls
      have hevo := hist.evolves_before hin
      have hsame := hb'.evolve hevo hb
      obtain ⟨dispatch, reconcile, hserves, rfl⟩ :=
        serves_of_reviewed h.base hin hachieved.calls hb'
          (hevo.trans (hc.evolves (History.good hist))) (hsame.symm.trans hid) hop hinstrument
      rw [hstill]
      refine achieved h hin hachieved hserves hb' fun hk => ?_
      -- the use is still under way
      obtain ⟨since, claim, base, rfl, _, hclaims, _⟩ := hachieved.calls.claimed hist hin
      have hclaim : (claim :: base) <:+ x.base.history :=
        (List.suffix_append since _).trans ((List.suffix_cons e _).trans hin)
      exact hclaims.latest hist hclaim hb ((AttemptRecord.leaseKey_iff hsame I.key).mpr hk)
    · rw [← hafter] at hsame
      exact absurd (hsame ▸ ha) hnew

/-- The flash only changes in a run of the backend for a use that the calling thread has claimed and
that is under way. -/
theorem moved_busy (h : Workshop.Reachable x) (hs : Workshop.Step x x')
    (hmoved : x'.device ≠ x.device) : ∃ t p u a, x.work = some (some t, p) ∧
      (∃ claim base, (claim :: base) <:+ x.base.history ∧ claim.thread = t ∧ u.Claims claim base) ∧
      x.base.state.store.Busy u a ∧ x.base.state.store.Leased I.key a.pair := by
  obtain ⟨t, r, p, hwork, hwaits, ho⟩ :=
    Workshop.Reachable.moved contract exclusive frees h hs hmoved
  obtain ⟨u, a, claim, base, hb, hk, hin, hthread, hclaims⟩ := owner h.base hwaits ho
  exact ⟨t, p, u, a, hwork, ⟨claim, base, hin, hthread, hclaims⟩, hb,
    (Reachable.good h.base).leased_of_busy hb hk⟩

/-- In every run of the daemon and the flash, whatever else the daemon serves, wherever runs of the
backend are cut off and the daemon crashes: when an attempt becomes completed, the flash is as its
reviewed operation asks; it stays so as long as no other use of the instrument is claimed after the
one that achieved it; and it only changes in a run of the backend for a use that the thread of this
run has claimed, that is under way and has leased the instrument. -/
theorem flash_completed (h : Workshop.Reachable x) :
    (∀ x' a operation, Workshop.Step x x' → ¬ x.base.state.store.Attempt a →
      x'.base.state.store.Attempt a → a.state = .completed →
      Reviewed x'.base.state.store a operation → operation.instrument = some I.instrument →
      operation.Satisfied x'.device.memory) ∧
    (∀ a operation, x.base.state.store.Attempt a → a.state = .completed →
      Reviewed x.base.state.store a operation → operation.instrument = some I.instrument →
      ∃ u e, e ∈ x.base.history ∧ u.Achieved e ∧ (∃ b, e.before.store.Busy u b ∧ b.id = a.id) ∧
        (u.Latest I.key x.base.history → operation.Satisfied x.device.memory)) ∧
    ∀ x', Workshop.Step x x' → x'.device ≠ x.device → ∃ t p u a, x.work = some (some t, p) ∧
      (∃ claim base, (claim :: base) <:+ x.base.history ∧ claim.thread = t ∧ u.Claims claim base) ∧
      x.base.state.store.Busy u a ∧ x.base.state.store.Leased I.key a.pair :=
  ⟨fun _ _ _ hs hnew ha hstate hop hinstrument =>
      completing_satisfied h hs hnew ha hstate hop hinstrument,
    fun _ _ ha hstate hop hinstrument => completed_satisfied h ha hstate hop hinstrument,
    fun _ hs hmoved => moved_busy h hs hmoved⟩

end completed

end Installation

/-! ### On the rig -/

namespace Site

open Workshop

/-- What the rig's write reports. -/
def observed : Observation :=
  match Rig.chipRun.2.1.1 with
  | .ok (.completed observation) => { observation with evidence := none }
  | _ => Bench.reading

/-- The rig, whose flash is all that there is evidence of. -/
scoped instance crates : Crates :=
  { Rig.crates with
    decodeEnvelope := fun _ => .ok
      ⟨Bench.a₁, Bench.dispatchChallenge Bench.a₁, .execution, observed⟩ }

def identity : ArtifactDigest := physicalIdentity "usb:1209:7331:flasher"

theorem sessions_sorted : ([(Rig.flasher, Rig.chipBinding)].map Prod.fst).Pairwise (· < ·) := by
  simp

theorem identity_configured :
    configuredPhysicalIdentity Rig.chipBinding.config = .ok identity := by decide +kernel

def installation : Installation where
  patience := 2
  encode _ := []
  backend := ⟨⟨[(Rig.flasher, Rig.chipBinding)], sessions_sorted⟩⟩
  instrument := Rig.flasher
  binding := Rig.chipBinding
  profile := .of Rig.geometry
  identity := identity
  bound := rfl
  qualified := rfl
  identified := identity_configured

/-- The rig's profile, of what the flash is configured as. -/
def profile : CommissionedProfile :=
  { Rig.flashProfile with
    instruments := ⟨[(Rig.flasher, { Bench.binding with
      fingerprint := Platform.sha256 []
      physicalIdentity := identity
      configurationDigest := Platform.sha256 []
      qualifiedCapabilities := {.flash}
      qualifiedEffectPermissions := Rig.flashEffects })], by simp⟩ }

def proposal : PlanProposal :=
  { Bench.proposal Bench.p₁ [⟨Rig.writeOperation, 1, []⟩] with
    instrumentFingerprints := ⟨[(Rig.flasher, Platform.sha256 [])], by simp⟩
    instrumentConfigurationDigests := ⟨[(Rig.flasher, Platform.sha256 [])], by simp⟩ }

/-- The backend completes the write. -/
def completing : Choice :=
  Bench.answering (.completed { observed with evidence := some (Bench.mark "evidence") })

/-- The plan of the write is reviewed, and its step is being executed. -/
def opening : List (Move daemon) :=
  .interfere (fun w => { w with
    artifacts := Bench.holding
      [utf8 "candidate", utf8 "tool", utf8 "evidence", Rig.candidate] }) (fun _ => rfl) ::
  List.replicate 2 (.boot Bench.lost) ++ .serve ::
  [.commission Bench.operator profile, .issueGrant Bench.operator Bench.agent Rig.flashGrant,
    .proposePlan Bench.agent proposal, .reviewProposal Bench.reviewer Bench.p₁ proposal.digest,
    .submit Bench.agent ⟨Bench.a₁, Bench.r₁, Bench.g₁, Bench.p₁, 0⟩].zipIdx.flatMap
    (fun (q, t) => .call q :: List.replicate 60 (.act (t + 1) Bench.lost) ++ [.return (t + 1)]) ++
  .call (.execute Bench.agent ⟨Bench.a₁⟩) :: List.replicate 5 (.act 6 Bench.lost)

def opened : daemon.Config := daemon.play daemon.start opening

/-- What thread 6 asks next. -/
def asking (c : daemon.Config) : Option surroundings.Request :=
  match c.threads 6 with
  | some (.ask r _) => some r
  | _ => none

theorem exists_of_asking {c : daemon.Config} {r : surroundings.Request} (h : asking c = some r) :
    ∃ k, c.threads 6 = some (.ask r k) := by
  unfold asking at h
  split at h
  · next r' k hk =>
      cases h
      exact ⟨k, hk⟩
  · cases h

/-- The dispatch of the write. -/
def dispatch : DispatchRequest :=
  (((asking opened).bind Request.dispatched).getD (Rig.writeDispatch, false)).1

/-- The run of the write against a blank flash. -/
def written : List (Exchange hardware) ×
    (Except BackendError OperationReceipt × Option Connected) × Nor.State :=
  ((DeviceBackend.run installation.patience installation.backend dispatch
    (opened.state.artifacts.read none) false).start none).against Rig.chipRespond
      ⟨fun _ => 0xFF, false⟩

/-- After `n` requests of the execution, the first of which calls the backend. -/
def after (n : ℕ) : daemon.Config :=
  daemon.play opened (List.replicate n (.act 6 completing))

/-- The execution makes a request that does not call the backend. -/
theorem quiet_step {x : installation.Config} {c : daemon.Config} (hbase : x.base = c)
    (h : (asking c).any (fun r => r.dispatched.isNone) = true) :
    Step x { x with base := daemon.move c (.act 6 completing) } := by
  subst hbase
  obtain ⟨r, hr, hquiet⟩ := (Option.any_eq_true _ _).mp h
  obtain ⟨k, hk⟩ := exists_of_asking hr
  rw [Service.move, hk]
  refine .act completing hk ?_
  rintro ⟨dispatch, reconcile, hd, _⟩
  rw [hd] at hquiet
  cases hquiet

set_option maxRecDepth 20000 in
/-- The execution is about to call the backend. -/
theorem exists_called : ∃ r k, opened.threads 6 = some (.ask r k) ∧
    installation.Serves r dispatch false := by
  have hasked : ((asking opened).bind Request.dispatched).map Prod.snd = some false := by
    decide +kernel
  have hoperation : dispatch.operation = Rig.writeOperation := by decide +kernel
  obtain ⟨called, hcalled, hreconcile⟩ := Option.map_eq_some_iff.mp hasked
  have hdispatch : called = (dispatch, false) := by
    rw [dispatch, hcalled, ← hreconcile]
    rfl
  obtain ⟨r, hr, hd⟩ := Option.bind_eq_some_iff.mp hcalled
  obtain ⟨k, hk⟩ := exists_of_asking hr
  refine ⟨r, k, hk, hdispatch ▸ hd, ?_⟩
  rw [hoperation]
  rfl

set_option maxRecDepth 20000 in
/-- The daemon gets there by itself. -/
theorem opened_reachable : Workshop.Reachable (W := installation.workshop)
    ⟨opened, ⟨fun _ => 0xFF, false⟩, none, none, fun _ => none⟩ := by
  have hmoves : ∀ m ∈ opening, crashes m = false := by decide +kernel
  have hquiet : ∀ e ∈ opened.history, e.request.dispatched = none := by decide +kernel
  refine ⟨⟨fun _ => 0xFF, false⟩, play_steps (x := start _) opening .refl hmoves ?_⟩
  rintro new hnew e he ⟨dispatch, reconcile, hd, _⟩
  have hall : opened.history = new ++ [] := hnew
  have hin : e ∈ opened.history := by
    rw [hall]
    exact List.mem_append_left _ he
  rw [hquiet e hin] at hd
  cases hd

set_option maxRecDepth 20000 in
/-- The run of the backend ends, and the call is answered. -/
theorem exists_answered : ∃ x : installation.Config, Workshop.Reachable x ∧ x.base = after 1 := by
  have hreceipt : completing.receipt = written.2.1.1 := by decide +kernel
  obtain ⟨r, k, hk, hserves⟩ := exists_called
  refine opened_reachable.answered chipRespond_chip rfl ⟨dispatch, false, hserves⟩ hk rfl
    ⟨dispatch, false, opened.state.artifacts.read none, hserves, ⟨_, _, rfl⟩, rfl⟩ completing
    hreceipt

set_option maxRecDepth 20000 in
/-- The write of the rig is executed and recorded, and the flash then holds its candidate. -/
theorem flash_completed_rig : ∃ x x' : installation.Config, Workshop.Reachable x ∧ Step x x' ∧
    (∃ a, ¬ x.base.state.store.Attempt a ∧ x'.base.state.store.Attempt a ∧ a.state = .completed) ∧
    Rig.writeOperation.Satisfied x'.device.memory := by
  obtain ⟨hread, hrecord, hbefore, row, hrow, hstate, plan, hplan, hid, hplanned⟩ :
      (asking (after 1)).any (fun r => r.dispatched.isNone) = true ∧
      (asking (after 2)).any (fun r => r.dispatched.isNone) = true ∧
      (∀ row ∈ (after 2).state.store.attempts.rows, row.json.state ≠ .completed) ∧
      ∃ row ∈ (after 3).state.store.attempts.rows, row.json.state = .completed ∧
        ∃ plan ∈ (after 3).state.store.plans.rows, plan.id = row.json.plan ∧
          (plan.operations[row.json.operationIndex]?).map PlannedOperation.operation =
            some Rig.writeOperation := by decide +kernel
  obtain ⟨x, hx, hbase⟩ := exists_answered
  have hverified := hx.step (quiet_step hbase hread)
  have hrecorded := quiet_step (c := after 2) rfl hrecord (x := { x with base := after 2 })
  have ha : (after 3).state.store.Attempt row.json :=
    (Reachable.good (hverified.step hrecorded).base).regular.coherent.attempt_of_mem hrow
  obtain ⟨planned, hstep, hoperation⟩ := Option.map_eq_some_iff.mp hplanned
  have hnew : ¬ (after 2).state.store.Attempt row.json := fun h => hbefore _ h hstate
  exact ⟨_, _, hverified, hrecorded, ⟨row.json, hnew, ha, hstate⟩,
    (Installation.flash_completed hverified).1 _ _ _ hrecorded hnew ha hstate
      ⟨plan, hplan, hid, planned, hstep, hoperation⟩ rfl⟩

end Site

end Cheirismos
