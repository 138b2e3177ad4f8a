import Cheirismos.Effects

/-! # What each method of the store has done

The effects of the transactions that touch attempts, leases, reconciliations, takeovers or
abandonments, from `Effects`' lemmas about their parts.

Reservation and takeover admit an attempt under the same checks (`Admits`).  `InOrder` says
which step a reservation may add, `Source` what a takeover requires of an unresolved attempt,
`ClaimsDispatch` and `ClaimsReconciliation` what a claim has checked and returns. -/

namespace Cheirismos

open Tx

variable [Platform] {s s' : Store} {clock : ℕ → Timestamp}

/-! ### Reservation -/

/-- The checks of an admission; `remaining` is the budget left after it. -/
structure Admits (s : Store) (now : Timestamp) (a : AttemptRecord) (snapshot : AdmissionSnapshot)
    (granted : Grant) (remaining : Budget) : Prop where
  unhalted : ¬ s.Halted a.pair
  unretired : ¬ s.Retired a.pair
  grant : Active s now a.grant snapshot.agent a.profile granted
  profile : ∃ profile ∈ s.profiles, profile.id = a.profile ∧ profile.digest = a.profileDigest ∧
    profile.digest = snapshot.profile.digest
  plan : ∃ plan ∈ s.plans, plan.id = a.plan ∧ plan.digest = a.planDigest ∧
    plan.digest = snapshot.plan.digest
  budget : granted.remaining.checkedSub a.reserved = some remaining

/-- The attempt is the first step of its pair, or the one after a completed last step. -/
def InOrder (s : Store) (a : AttemptRecord) : Prop :=
  (a.operationIndex = 0 ∧ ∀ b, s.Attempt b → b.pair ≠ a.pair) ∨
  ∃ b, s.Top b ∧ b.pair = a.pair ∧ b.state = .completed ∧
    a.operationIndex = b.operationIndex + 1 ∧
    ∃ first, s.Attempt first ∧ first.pair = a.pair ∧ first.operationIndex = 0 ∧
      first.snapshot = a.snapshot

/-- The leases after the attempt took those it lacked. -/
def TakesLeases (s : Store) (a : AttemptRecord) (leases : Table LeaseRow.resourceKey) : Prop :=
  (∀ key q, (⟨key, q⟩ : LeaseRow) ∈ leases ↔ s.Leased key q ∨ q = a.pair ∧ a.LeaseKey key) ∧
  ∀ key q, a.LeaseKey key → s.Leased key q → q = a.pair

theorem reserveNew_ok (hc : s.Coherent) {a : AttemptRecord} {snapshot : AdmissionSnapshot}
    {u : Unit} (h : reserveNew clock a snapshot s = .ok (u, s')) :
    ∃ grant remaining leases attempts,
      Admits s (clock 0) a snapshot grant remaining ∧ InOrder s a ∧ TakesLeases s a leases ∧
      PlacesAttempt s a attempts ∧
      s' = { s with
        planLeases := leases
        grants := s.grants.replace { grant with remaining := remaining }
        attempts := attempts } := by
  simp only [reserveNew, get_bind_ok, refuse_bind_ok, Store.haltedPairExists_iff,
    Store.recoverySourceRetired_iff] at h
  obtain ⟨hhalt, hret, h⟩ := h
  obtain ⟨grant, _, hgrant, h⟩ := bind_ok.mp h
  obtain ⟨hactive, rfl⟩ := activeGrant_ok hgrant
  obtain ⟨profile, _, hprofile, h⟩ := bind_ok.mp h
  obtain ⟨hpm, hpid, hpd, rfl⟩ := pinnedProfile_ok hprofile
  obtain ⟨plan, _, hplan, h⟩ := bind_ok.mp h
  obtain ⟨hlm, hlid, hld, rfl⟩ := pinnedPlan_ok hplan
  obtain ⟨expected, _, hstep, h⟩ := bind_ok.mp h
  obtain ⟨hnext, rfl⟩ := nextStep_ok hc hstep
  obtain ⟨hindex, h⟩ := refuse_bind_ok.mp h
  rw [ne_eq, not_not] at hindex
  -- the snapshot is compared for later steps only
  have hsnap : ∃ s₁ : Store, (a.operationIndex ≠ 0 → ∃ first, s.Attempt first ∧
      first.pair = a.pair ∧ first.operationIndex = 0 ∧ first.snapshot = a.snapshot) ∧
      (do takeLeases a.pair a.leasedResources.elems
          let _ ← debit grant a.reserved
          let index ← sqliteIndex "attempt operation index" a.operationIndex
          insertAttempt { AttemptRow.of a with operationIndex := index } : Tx Unit) s =
        .ok (u, s') := by
    by_cases hpos : 0 < a.operationIndex
    · rw [if_pos hpos] at h
      obtain ⟨_, _, hs, h⟩ := bind_ok.mp h
      obtain ⟨hfirst, rfl⟩ := requireRunSnapshot_ok hc hs
      exact ⟨s, fun _ => hfirst, h⟩
    · rw [if_neg hpos] at h
      exact ⟨s, fun hne => absurd (Nat.pos_of_ne_zero hne) hpos, h⟩
  obtain ⟨_, hfirst, h⟩ := hsnap
  obtain ⟨_, _, htake, h⟩ := bind_ok.mp h
  obtain ⟨leases, hl1, hl2, rfl⟩ := takeLeases_ok htake
  obtain ⟨_, _, hdebit, h⟩ := bind_ok.mp h
  obtain ⟨remaining, hrem, rfl, rfl⟩ := debit_ok hdebit
  obtain ⟨index, _, hlift, h⟩ := bind_ok.mp h
  obtain ⟨hidx, rfl⟩ := liftExcept_ok.mp hlift
  rw [sqliteIndex, sqliteUnsigned_ok] at hidx
  have hrow : ({ AttemptRow.of a with operationIndex := index } : AttemptRow) =
      AttemptRow.of a := by
    unfold AttemptRow.of
    rw [hidx.2]
  rw [hrow] at h
  obtain ⟨attempts, hplaces, rfl⟩ := insertAttempt_ok h
  refine ⟨grant, remaining, leases, attempts, ⟨hhalt, hret, hactive, ?_, ?_, hrem⟩, ?_, ?_,
    ⟨hplaces.1, hplaces.2, hplaces.3, hplaces.4⟩, rfl⟩
  · exact ⟨profile, hpm, hpid, hpd _ (by simp), hpd _ (by simp)⟩
  · exact ⟨plan, hlm, hlid, hld _ (by simp), hld _ (by simp)⟩
  · rcases hnext with ⟨rfl, hnone⟩ | ⟨b, htop, hp, hstate, rfl⟩
    · exact Or.inl ⟨hindex, hnone⟩
    · exact Or.inr ⟨b, htop, hp, hstate, hindex, hfirst (by omega)⟩
  · refine ⟨hl1, ?_⟩
    rintro key q ⟨r, hr, rfl⟩ hq
    exact hl2 r hr q hq

/-- A reservation replays an attempt of the request id, or admits a new one. -/
theorem reserve_ok (hc : s.Coherent) {a : AttemptRecord} {snapshot : AdmissionSnapshot}
    {outcome : ReservationOutcome} (h : reserve clock a snapshot s = .ok (outcome, s')) :
    (s' = s ∧ ∃ existing, outcome = .existing existing ∧ s.Attempt existing ∧
      existing.request = a.request ∧ existing.id = a.id ∧ existing.pair = a.pair ∧
      existing.operationIndex = a.operationIndex) ∨
    (outcome = .reserved a ∧ (∀ b, s.Attempt b → b.request ≠ a.request) ∧
      reserveNew clock a snapshot s = .ok ((), s')) := by
  rw [reserve, get_bind_ok] at h
  cases hf : s.loadAttemptByRequest a.request with
  | some existing =>
      rw [hf] at h
      simp only [refuse_bind_ok, pure_ok, not_or, not_not, ne_eq] at h
      obtain ⟨⟨h1, h2, h3, h4, _⟩, rfl, rfl⟩ := h
      obtain ⟨hatt, hreq⟩ := hc.loadAttemptByRequest_some hf
      exact Or.inl ⟨rfl, existing, rfl, hatt, hreq, h1, Prod.ext h2 h3, h4⟩
  | none =>
      rw [hf] at h
      obtain ⟨_, _, hnew, hp⟩ := bind_ok.mp h
      obtain ⟨rfl, rfl⟩ := pure_ok.mp hp
      exact Or.inr ⟨rfl, fun b hb => Store.loadAttemptByRequest_none hf hb, hnew⟩

/-- A reservation that replays an attempt changes nothing. -/
theorem reserve_existing (hc : s.Coherent) {a existing : AttemptRecord}
    {snapshot : AdmissionSnapshot} (h : reserve clock a snapshot s = .ok (.existing existing, s')) :
    s' = s := by
  rcases reserve_ok hc h with ⟨hs, _⟩ | ⟨hno, _⟩
  · exact hs
  · cases hno

/-- After a reservation its attempt is on record, old or new. -/
theorem reserve_recorded (hc : s.Coherent) {a : AttemptRecord} {snapshot : AdmissionSnapshot}
    {outcome : ReservationOutcome} (h : reserve clock a snapshot s = .ok (outcome, s')) :
    ∃ b, s'.Attempt b ∧ b.request = a.request ∧ b.id = a.id ∧ b.pair = a.pair ∧
      b.operationIndex = a.operationIndex ∧ (outcome = .existing b ∨ outcome = .reserved a) := by
  rcases reserve_ok hc h with ⟨rfl, b, rfl, hb, h1, h2, h3, h4⟩ | ⟨rfl, _, hnew⟩
  · exact ⟨b, hb, h1, h2, h3, h4, Or.inl rfl⟩
  · obtain ⟨_, _, _, _, _, _, _, places, rfl⟩ := reserveNew_ok hc hnew
    exact ⟨a, places.mem.mpr (Or.inl rfl), rfl, rfl, rfl, rfl, Or.inr rfl⟩

omit [Platform] in
/-- After a run was created it is on record, up to its cursor. -/
theorem createRun_recorded {run : PlanRun} {u : Unit} (h : createRun run s = .ok (u, s')) :
    ∃ r ∈ s'.runs, r.id = run.id ∧ r.agent = run.agent ∧ r.pair = run.pair ∧
      r.steps = run.steps := by
  rcases insertOnce_ok h with ⟨t, ht, rfl⟩ | ⟨rfl, existing, hm, hid, hsame⟩
  · exact ⟨run, (Table.mem_insert? ht).mpr (Or.inl rfl), rfl, rfl, rfl, rfl⟩
  · simp only [Bool.and_eq_true, beq_iff_eq] at hsame
    obtain ⟨⟨⟨hagent, hgrant⟩, hplan⟩, hsteps⟩ := hsame
    exact ⟨existing, hm, hid, hagent, Prod.ext hgrant hplan, hsteps⟩

omit [Platform] in
/-- The repaired run is on record. -/
theorem repairRunCursor_recorded {id : RequestId} {run : PlanRun}
    (h : repairRunCursor id s = .ok (run, s')) : run ∈ s'.runs ∧ run.id = id := by
  simp only [repairRunCursor, updateRun, get_bind_ok, required_bind_ok] at h
  obtain ⟨stored, hf, h⟩ := h
  obtain ⟨hm, hid⟩ := Table.find?_eq_some.mp hf
  split_ifs at h with hbehind
  · simp only [modify_bind_ok, Tx.pure_ok] at h
    obtain ⟨rfl, rfl⟩ := h
    exact ⟨(Table.mem_replace hm (by rfl)).mpr (Or.inl rfl), hid⟩
  · obtain ⟨rfl, rfl⟩ := Tx.pure_ok.mp h
    exact ⟨hm, hid⟩

/-! ### Takeover -/

/-- What a takeover of these resources requires of one unresolved attempt. -/
structure Source (s : Store) (resources : OrdSet PhysicalResource) (id : AttemptId)
    (a : AttemptRecord) : Prop where
  attempt : s.Attempt a
  id : a.id = id
  unretired : ¬ s.Retired a.pair
  settled : ∀ b, s.Attempt b → b.pair = a.pair → b.state ≠ .dispatched
  unclaimed : ∀ r b, s.Witness r → r.state = .claimed → s.Attempt b → b.id = r.attempt →
    b.pair ≠ a.pair
  uncertain : (a.state = .partially ∨ a.state = .unknown) ∨ s.Destination a.pair
  resources : a.leasedResources = resources

omit [Platform] in
theorem admitSource_ok (hc : s.Coherent) {resources : OrdSet PhysicalResource} {id : AttemptId}
    {a : AttemptRecord} (h : admitSource resources id s = .ok (a, s')) :
    Source s resources id a ∧ s = s' := by
  simp only [admitSource, get_bind_ok, required_bind_ok, refuse_bind_ok, pure_ok,
    Store.recoverySourceRetired_iff, Store.recoveryDestinationExists_iff,
    hc.sourcePairHasDispatched_iff, hc.sourcePairHasActiveReconciliation_iff] at h
  obtain ⟨source, hf, h1, h2, h3, h4, h5, _, rfl, rfl⟩ := h
  obtain ⟨hm, hid⟩ := hc.loadAttempt_eq_some.mp hf
  refine ⟨⟨hm, hid, h1, ?_, ?_, ?_, not_not.mp h5⟩, rfl⟩
  · exact fun b hb hp hstate => h2 ⟨b, hb, hp, hstate⟩
  · exact fun r b hr hstate hb hbid hp => h3 ⟨r, b, hr, hstate, hb, hbid, hp⟩
  · by_contra hcon
    rw [not_or] at hcon
    exact h4 ⟨hcon.1, fun hd => hcon.2 hd.1⟩

omit [Platform] in
theorem admitSources_ok (hc : s.Coherent) {resources : OrdSet PhysicalResource} :
    ∀ {ids : List AttemptId} {owners : List Pair} {s' : Store},
    admitSources resources ids s = .ok (owners, s') →
      (∀ id ∈ ids, ∃ a, Source s resources id a ∧ a.pair ∈ owners) ∧
      (∀ q ∈ owners, ∃ id ∈ ids, ∃ a, Source s resources id a ∧ a.pair = q) ∧ s = s'
  | [], owners, s', h => by
      rw [admitSources, pure_ok] at h
      obtain ⟨rfl, rfl⟩ := h
      exact ⟨by simp, by simp, rfl⟩
  | id :: ids, owners, s', h => by
      rw [admitSources] at h
      obtain ⟨a, _, ha, h⟩ := bind_ok.mp h
      obtain ⟨hsource, rfl⟩ := admitSource_ok hc ha
      obtain ⟨rest, _, hrest, h⟩ := bind_ok.mp h
      obtain ⟨h1, h2, rfl⟩ := admitSources_ok hc hrest
      obtain ⟨rfl, rfl⟩ := pure_ok.mp h
      refine ⟨List.forall_mem_cons.mpr ⟨⟨a, hsource, by simp⟩, ?_⟩, ?_, rfl⟩
      · intro i hi
        obtain ⟨b, hb, hbo⟩ := h1 i hi
        exact ⟨b, hb, List.mem_insert_of_mem hbo⟩
      · intro q hq
        rcases List.mem_insert_iff.mp hq with rfl | hq
        · exact ⟨id, by simp, a, hsource, rfl⟩
        · obtain ⟨i, hi, b, hb, hbq⟩ := h2 q hq
          exact ⟨i, by simp [hi], b, hb, hbq⟩

omit [Platform] in
theorem retireSources_ok {request : RequestId} {u : Unit} :
    ∀ {owners : List Pair} {s s' : Store}, retireSources request owners s = .ok (u, s') →
    ∃ retirements : Table RetirementRow.pair,
      (∀ row, row ∈ retirements ↔ row ∈ s.recoverySourceRetirements ∨
        row.takeoverRequest = request ∧ row.pair ∈ owners) ∧
      s' = { s with recoverySourceRetirements := retirements }
  | [], s, s', h => by
      rw [retireSources, pure_ok] at h
      exact ⟨s.recoverySourceRetirements, by simp, h.2.symm⟩
  | owner :: owners, s, s', h => by
      rw [retireSources] at h
      obtain ⟨_, _, hins, h⟩ := bind_ok.mp h
      obtain ⟨t, ht, rfl⟩ := insertRow_ok.mp hins
      obtain ⟨retirements, h1, rfl⟩ := retireSources_ok h
      refine ⟨retirements, ?_, rfl⟩
      rintro ⟨q, i⟩
      rw [h1, Table.mem_insert? ht, List.mem_cons, RetirementRow.mk.injEq]
      tauto

/-- The leases after the pair of the attempt took over all of its keys from old owners. -/
def MovesLeases (s : Store) (a : AttemptRecord) (owners : List Pair)
    (leases : Table LeaseRow.resourceKey) : Prop :=
  (∀ key q, (⟨key, q⟩ : LeaseRow) ∈ leases ↔
    (q = a.pair ∧ a.LeaseKey key) ∨ (s.Leased key q ∧ ¬ a.LeaseKey key)) ∧
  ∀ key, a.LeaseKey key → ∃ q ∈ owners, s.Leased key q

theorem transferRecovery_ok (hc : s.Coherent) {a : AttemptRecord} (h0 : a.operationIndex = 0)
    {snapshot : AdmissionSnapshot} {run : PlanRun} {recovery : RecoveryTakeoverRecord} {u : Unit}
    (h : transferRecovery clock a snapshot run recovery s = .ok (u, s')) :
    ∃ grant remaining owners leases retirements attempts runs takeovers,
      Admits s (clock 0) a snapshot grant remaining ∧
      (∀ id ∈ recovery.unresolved, ∃ b, Source s a.leasedResources id b ∧ b.pair ∈ owners) ∧
      (∀ q ∈ owners, ∃ id ∈ recovery.unresolved, ∃ b, Source s a.leasedResources id b ∧
        b.pair = q) ∧
      MovesLeases s a owners leases ∧
      (∀ row, row ∈ retirements ↔ row ∈ s.recoverySourceRetirements ∨
        row.takeoverRequest = recovery.request ∧ row.pair ∈ owners) ∧
      PlacesAttempt s a attempts ∧ s.runs.insert? run = some runs ∧
      s.recoveryTakeovers.insert? recovery = some takeovers ∧
      s' = { s with
        planLeases := leases
        recoverySourceRetirements := retirements
        grants := s.grants.replace { grant with remaining := remaining }
        attempts := attempts
        runs := runs
        recoveryTakeovers := takeovers } := by
  simp only [transferRecovery, get_bind_ok, refuse_bind_ok, Store.haltedPairExists_iff,
    Store.recoverySourceRetired_iff, not_or] at h
  obtain ⟨⟨hhalt, hret⟩, h⟩ := h
  obtain ⟨grant, _, hgrant, h⟩ := bind_ok.mp h
  obtain ⟨hactive, rfl⟩ := activeGrant_ok hgrant
  obtain ⟨profile, _, hprofile, h⟩ := bind_ok.mp h
  obtain ⟨hpm, hpid, hpd, rfl⟩ := pinnedProfile_ok hprofile
  obtain ⟨plan, _, hplan, h⟩ := bind_ok.mp h
  obtain ⟨hlm, hlid, hld, rfl⟩ := pinnedPlan_ok hplan
  obtain ⟨owners, _, hsources, h⟩ := bind_ok.mp h
  obtain ⟨hs1, hs2, rfl⟩ := admitSources_ok hc hsources
  obtain ⟨_, _, hmove, h⟩ := bind_ok.mp h
  obtain ⟨leases, hl1, hl2, rfl⟩ := moveLeases_ok hmove
  obtain ⟨_, _, hretire, h⟩ := bind_ok.mp h
  obtain ⟨retirements, hr1, rfl⟩ := retireSources_ok hretire
  obtain ⟨_, _, hdebit, h⟩ := bind_ok.mp h
  obtain ⟨remaining, hrem, rfl, rfl⟩ := debit_ok hdebit
  obtain ⟨_, _, hattempt, h⟩ := bind_ok.mp h
  have hrow : ({ AttemptRow.of a with operationIndex := 0 } : AttemptRow) = AttemptRow.of a := by
    unfold AttemptRow.of
    rw [h0]
    rfl
  rw [hrow] at hattempt
  obtain ⟨attempts, hplaces, rfl⟩ := insertAttempt_ok hattempt
  obtain ⟨_, _, hrun, h⟩ := bind_ok.mp h
  obtain ⟨runs, hruns, rfl⟩ := insertRow_ok.mp hrun
  obtain ⟨takeovers, htakeovers, rfl⟩ := insertRow_ok.mp h
  refine ⟨grant, remaining, owners, leases, retirements, attempts, runs, takeovers,
    ⟨hhalt, hret, hactive, ?_, ?_, hrem⟩, hs1, hs2, ⟨hl1, ?_⟩, hr1,
    ⟨hplaces.1, hplaces.2, hplaces.3, hplaces.4⟩, hruns, htakeovers, rfl⟩
  · exact ⟨profile, hpm, hpid, hpd _ (by simp), hpd _ (by simp)⟩
  · exact ⟨plan, hlm, hlid, hld _ (by simp), hld _ (by simp)⟩
  · rintro key ⟨r, hr, rfl⟩
    exact hl2 r hr

/-- The three ways a takeover succeeds: as a replay of a recorded takeover, as a replay of an
attempt under its request id, or by a transfer. -/
theorem takeoverRecovery_ok (hc : s.Coherent) {a : AttemptRecord} {snapshot : AdmissionSnapshot}
    {run : PlanRun} {recovery : RecoveryTakeoverRecord} {outcome : ReservationOutcome}
    (h : takeoverRecovery clock a snapshot run recovery s = .ok (outcome, s')) :
    (s' = s ∧ ∃ existing ∈ s.recoveryTakeovers, sameRecoveryTakeover existing recovery = true ∧
      ∃ b, outcome = .existing b ∧ s.Attempt b ∧ b.id = recovery.firstAttempt) ∨
    (s' = s ∧ s.recoveryTakeovers.find? recovery.request = none ∧
      ∃ b, outcome = .existing b ∧ s.Attempt b ∧ b.request = a.request ∧ b.id = a.id ∧
        b.pair = a.pair) ∨
    (outcome = .reserved a ∧ s.recoveryTakeovers.find? recovery.request = none ∧
      (∀ b, s.Attempt b → b.request ≠ a.request) ∧
      transferRecovery clock a snapshot run recovery s = .ok ((), s')) := by
  rw [takeoverRecovery, get_bind_ok] at h
  cases hf : s.recoveryTakeovers.find? recovery.request with
  | some existing =>
      rw [hf] at h
      simp only [refuse_bind_ok, get_bind_ok, required_bind_ok, pure_ok] at h
      obtain ⟨hsame, b, hb, rfl, rfl⟩ := h
      obtain ⟨hm, hid⟩ := hc.loadAttempt_eq_some.mp hb
      exact Or.inl ⟨rfl, existing, (Table.find?_eq_some.mp hf).1, by simpa using hsame, b, rfl,
        hm, hid⟩
  | none =>
      rw [hf] at h
      simp only [get_bind_ok] at h
      cases hr : s.loadAttemptByRequest a.request with
      | some b =>
          rw [hr] at h
          simp only at h
          split_ifs at h with hsame
          · obtain ⟨rfl, rfl⟩ := pure_ok.mp h
            obtain ⟨hm, hreq⟩ := hc.loadAttemptByRequest_some hr
            exact Or.inr (Or.inl ⟨rfl, rfl, b, rfl, hm, hreq, hsame.1,
              Prod.ext hsame.2.1 hsame.2.2⟩)
          · exact absurd h throw_ok
      | none =>
          rw [hr] at h
          obtain ⟨_, _, hnew, hp⟩ := bind_ok.mp h
          obtain ⟨rfl, rfl⟩ := pure_ok.mp hp
          exact Or.inr (Or.inr ⟨rfl, rfl,
            fun b hb => Store.loadAttemptByRequest_none hr hb, hnew⟩)

/-! ### Abandonment -/

/-- An attempt rejected because its run was abandoned. -/
def abandoned (now : Timestamp) (a : AttemptRecord) : AttemptRecord :=
  { a with
    state := .rejected
    receipt := some (.rejected "operator abandoned halted run before dispatch")
    updatedAt := Platform.renderTimestamp now }

theorem abandoned_identity (now : Timestamp) (a : AttemptRecord) :
    (abandoned now a).identity = a.identity := rfl

/-- Rejecting one undispatched attempt of the pair. -/
def RejectsIntent (p : Pair) (s s' : Store) : Prop :=
  ∃ a now, s.Attempt a ∧ a.pair = p ∧ a.state = .intent ∧ s' = s.setAttempt (abandoned now a)

/-- Rejecting undispatched attempts touches nothing else. -/
theorem RejectsIntent.back {p : Pair} (hc : s.Coherent)
    (h : Relation.ReflTransGen (RejectsIntent p) s s') :
    s'.Coherent ∧ s' = { s with attempts := s'.attempts } ∧
      ∀ b, s'.Attempt b → ∃ a, s.Attempt a ∧ b.identity = a.identity ∧
        (b = a ∨ a.pair = p ∧ a.state = .intent ∧ b.state = .rejected) := by
  induction h with
  | refl => exact ⟨hc, rfl, fun b hb => ⟨b, hb, rfl, Or.inl rfl⟩⟩
  | tail _ hstep ih =>
      obtain ⟨hc₁, hframe, hback⟩ := ih
      obtain ⟨a, now, ha, hp, hstate, rfl⟩ := hstep
      refine ⟨hc₁.setAttempt ha (abandoned_identity now a), ?_, ?_⟩
      · rw [hframe]
        rfl
      · intro b hb
        rcases (Store.attempt_setAttempt ha (abandoned_identity now a)).mp hb with rfl | ⟨hb, _⟩
        · obtain ⟨a₀, ha₀, hid, heq | ⟨_, _, hrej⟩⟩ := hback a ha
          · exact ⟨a₀, ha₀, hid, Or.inr ⟨heq ▸ hp, heq ▸ hstate, rfl⟩⟩
          · rw [hstate] at hrej
            cases hrej
        · exact hback b hb

/-- Every attempt before is there afterwards, unless it was rejected. -/
theorem RejectsIntent.forth {p : Pair}
    (h : Relation.ReflTransGen (RejectsIntent p) s s') {a : AttemptRecord} (ha : s.Attempt a) :
    ∃ b, s'.Attempt b ∧ b.identity = a.identity ∧
      (b = a ∨ a.pair = p ∧ a.state = .intent ∧ b.state = .rejected) := by
  induction h with
  | refl => exact ⟨a, ha, rfl, Or.inl rfl⟩
  | tail _ hstep ih =>
      obtain ⟨b, hb, hid, hcase⟩ := ih
      obtain ⟨c, now, hc, hp, hstate, rfl⟩ := hstep
      obtain ⟨d, hd, hdid, rfl | ⟨rfl, rfl⟩⟩ :=
        Store.attempt_setAttempt_forth hc (abandoned_identity now c) hb
      · exact ⟨d, hd, hid, hcase⟩
      · refine ⟨_, hd, hdid.trans hid, Or.inr ?_⟩
        rcases hcase with rfl | ⟨h1, h2, _⟩
        · exact ⟨hp, hstate, rfl⟩
        · exact ⟨h1, h2, rfl⟩

theorem closeAttempts_ok {p : Pair} {u : Unit} :
    ∀ {attempts : List AttemptRecord} {n : ℕ} {s s' : Store},
    s.Coherent → (∀ a ∈ attempts, s.Attempt a ∧ a.pair = p) → attempts.Nodup →
    closeAttempts clock n attempts s = .ok (u, s') →
    Relation.ReflTransGen (RejectsIntent p) s s' ∧
      ∀ a ∈ attempts, (a.state = .completed ∨ a.state = .rejected ∨ a.state = .intent) ∧
        ∀ b, s'.Attempt b → b.id = a.id → b.state = .completed ∨ b.state = .rejected
  | [], n, s, s', _, _, _, h => by
      rw [closeAttempts, pure_ok] at h
      obtain ⟨_, rfl⟩ := h
      exact ⟨.refl, by simp⟩
  | a :: attempts, n, s, s', hc, hmem, hnodup, h => by
      rw [List.forall_mem_cons] at hmem
      rw [List.nodup_cons] at hnodup
      rw [closeAttempts] at h
      -- a settled attempt stays as it is
      have hstays : a.state = .completed ∨ a.state = .rejected →
          Relation.ReflTransGen (RejectsIntent p) s s' →
          ∀ b, s'.Attempt b → b.id = a.id → b.state = .completed ∨ b.state = .rejected := by
        intro hstate hr b hb hid
        obtain ⟨a₀, ha₀, hi, heq | ⟨_, _, hrej⟩⟩ := (RejectsIntent.back hc hr).2.2 b hb
        · subst heq
          rw [Store.attempt_inj ha₀ hmem.1.1 hid]
          exact hstate
        · exact Or.inr hrej
      cases hstate : a.state <;> rw [hstate] at h
      case completed =>
          obtain ⟨h1, h2⟩ := closeAttempts_ok hc hmem.2 hnodup.2 h
          exact ⟨h1, List.forall_mem_cons.mpr
            ⟨⟨Or.inl hstate, hstays (Or.inl hstate) h1⟩, h2⟩⟩
      case rejected =>
          obtain ⟨h1, h2⟩ := closeAttempts_ok hc hmem.2 hnodup.2 h
          exact ⟨h1, List.forall_mem_cons.mpr
            ⟨⟨Or.inr (Or.inl hstate), hstays (Or.inr hstate) h1⟩, h2⟩⟩
      case intent =>
          obtain ⟨_, s₁, hset, hrest⟩ := bind_ok.mp h
          rw [updateAttempt, modify_ok] at hset
          have hs₁ : s₁ = s.setAttempt (abandoned (clock n) a) := hset.symm
          have hident := abandoned_identity (clock n) a
          have hback : ∀ b, s₁.Attempt b ↔ b = abandoned (clock n) a ∨ s.Attempt b ∧ b.id ≠ a.id :=
            fun b => by rw [hs₁]; exact Store.attempt_setAttempt hmem.1.1 hident
          have hc₁ : s₁.Coherent := by rw [hs₁]; exact hc.setAttempt hmem.1.1 hident
          have htail : ∀ b ∈ attempts, s₁.Attempt b ∧ b.pair = p := by
            intro b hb
            refine ⟨(hback b).mpr (Or.inr ⟨(hmem.2 b hb).1, fun hid => hnodup.1 ?_⟩),
              (hmem.2 b hb).2⟩
            rw [← Store.attempt_inj (hmem.2 b hb).1 hmem.1.1 hid]
            exact hb
          obtain ⟨h1, h2⟩ := closeAttempts_ok hc₁ htail hnodup.2 hrest
          refine ⟨.head ⟨a, clock n, hmem.1.1, hmem.1.2, hstate, hs₁⟩ h1,
            List.forall_mem_cons.mpr ⟨⟨Or.inr (Or.inr hstate), ?_⟩, h2⟩⟩
          intro b hb hid
          obtain ⟨a₁, ha₁, hi, heq | ⟨_, _, hrej⟩⟩ := (RejectsIntent.back hc₁ h1).2.2 b hb
          · subst heq
            rcases (hback b).mp ha₁ with rfl | ⟨_, hne⟩
            · exact Or.inr rfl
            · exact absurd hid hne
          · exact Or.inr hrej
      case dispatched => exact absurd h throw_ok
      case partially => exact absurd h throw_ok
      case unknown => exact absurd h throw_ok

/-- A new abandonment: the pair has no unresolved attempt, its undispatched ones are rejected,
its leases are gone, and the record is added. -/
theorem abandonNew_ok (hc : s.Coherent) {record : HaltedRunAbandonmentRecord} {u : Unit}
    (h : abandonNew clock record s = .ok (u, s')) :
    ∃ s₁ : Store, ∃ leases : Table LeaseRow.resourceKey,
      ∃ abandonments : Table HaltedRunAbandonmentRecord.request,
      ¬ s.Halted record.pair ∧ ¬ s.Destination record.pair ∧
      Relation.ReflTransGen (RejectsIntent record.pair) s s₁ ∧
      (∀ a, s.Attempt a → a.pair = record.pair →
        a.state = .completed ∨ a.state = .rejected ∨ a.state = .intent) ∧
      (∀ a, s₁.Attempt a → a.pair = record.pair → a.state = .completed ∨ a.state = .rejected) ∧
      (∀ key q, (⟨key, q⟩ : LeaseRow) ∈ leases ↔ s.Leased key q ∧ q ≠ record.pair) ∧
      abandonments.rows = record :: s.haltedRunAbandonments.rows ∧
      s' = { s₁ with planLeases := leases, haltedRunAbandonments := abandonments } := by
  simp only [abandonNew, get_bind_ok, refuse_bind_ok, required_bind_ok,
    Store.haltedPairExists_iff, Store.recoveryDestinationExists_iff] at h
  obtain ⟨_, hhalt, hdest, run, _, _, _, h⟩ := h
  obtain ⟨_, s₁, hclose, hrest⟩ := bind_ok.mp h
  simp only [get_bind_ok, refuse_bind_ok, modify_bind_ok] at hrest
  obtain ⟨_, hinsert⟩ := hrest
  obtain ⟨abandonments, hrows, rfl⟩ := insertHaltedRunAbandonment_ok hinsert
  obtain ⟨hchain, hsettled⟩ := closeAttempts_ok hc (fun a => hc.mem_attemptsForPair.mp)
    (hc.nodup_attemptsForPair record.pair) hclose
  obtain ⟨_, hframe, hback⟩ := RejectsIntent.back hc hchain
  refine ⟨s₁, _, abandonments, hhalt, hdest, hchain, ?_, ?_, ?_, ?_, rfl⟩
  · exact fun a ha hp => (hsettled a (hc.mem_attemptsForPair.mpr ⟨ha, hp⟩)).1
  · intro b hb hp
    obtain ⟨a, ha, hid, _⟩ := hback b hb
    refine (hsettled a (hc.mem_attemptsForPair.mpr ⟨ha, ?_⟩)).2 b hb (AttemptRecord.id_eq hid)
    rw [← AttemptRecord.pair_eq hid, hp]
  · intro key q
    refine Store.leased_dropLeases.trans ?_
    have hl : ∀ key q, s₁.Leased key q ↔ s.Leased key q := by
      intro key q
      rw [hframe]
      rfl
    rw [decide_eq_true_eq, Store.mem_leaseKeysForPair, hl, hl]
    constructor
    · rintro ⟨hq, hn⟩
      exact ⟨hq, fun he => hn ⟨he ▸ hq, he⟩⟩
    · rintro ⟨hq, hn⟩
      exact ⟨hq, fun he => hn he.2⟩
  · rw [hrows, hframe]
    rfl

theorem abandonHaltedRun_ok {record result : HaltedRunAbandonmentRecord}
    (h : abandonHaltedRun clock record s = .ok (result, s')) :
    (s' = s ∧ result ∈ s.haltedRunAbandonments ∧ sameHaltedRunAbandonment result record = true) ∨
    (result = record ∧ abandonNew clock record s = .ok ((), s')) := by
  rw [abandonHaltedRun, get_bind_ok] at h
  cases hf : s.haltedRunAbandonments.find? record.request with
  | some existing =>
      rw [hf] at h
      simp only [refuse_bind_ok, pure_ok] at h
      obtain ⟨hsame, rfl, rfl⟩ := h
      exact Or.inl ⟨rfl, (Table.find?_eq_some.mp hf).1, by simpa using hsame⟩
  | none =>
      rw [hf] at h
      obtain ⟨_, _, hnew, hp⟩ := bind_ok.mp h
      obtain ⟨rfl, rfl⟩ := pure_ok.mp hp
      exact Or.inr ⟨rfl, hnew⟩

/-- After an abandonment its record is there, as it was asked for. -/
theorem abandonHaltedRun_recorded (hc : s.Coherent) {record result : HaltedRunAbandonmentRecord}
    (h : abandonHaltedRun clock record s = .ok (result, s')) :
    result ∈ s'.haltedRunAbandonments ∧ sameHaltedRunAbandonment result record = true := by
  rcases abandonHaltedRun_ok h with ⟨rfl, hm, hsame⟩ | ⟨rfl, hnew⟩
  · exact ⟨hm, hsame⟩
  · obtain ⟨_, _, abandonments, _, _, _, _, _, _, hrows, rfl⟩ := abandonNew_ok hc hnew
    refine ⟨?_, by simp [sameHaltedRunAbandonment]⟩
    change result ∈ abandonments.rows
    rw [hrows]
    exact List.mem_cons_self

/-! ### Dispatch -/

/-- What a claim of a dispatch has checked of the attempt, and what it returns. -/
structure ClaimsDispatch (s : Store) (now : Timestamp) (agent : PrincipalId) (a : AttemptRecord)
    (claimed : ClaimedDispatch) : Prop where
  attempt : s.Attempt a
  intent : a.state = .intent
  unhalted : ¬ s.Halted a.pair
  unretired : ¬ s.Retired a.pair
  grant : Active s now a.grant agent a.profile claimed.grant
  profile : claimed.profile ∈ s.profiles ∧ claimed.profile.id = a.profile ∧
    claimed.profile.digest = a.profileDigest
  plan : claimed.plan ∈ s.plans ∧ claimed.plan.id = a.plan ∧ claimed.plan.digest = a.planDigest
  leased : ∀ key, a.LeaseKey key → s.Leased key a.pair
  identity : claimed.attempt.identity = a.identity
  dispatched : claimed.attempt.state = .dispatched
  receipt : claimed.attempt.receipt = a.receipt

theorem claimDispatch_ok (hc : s.Coherent) {id : AttemptId} {agent : PrincipalId}
    {claimed : ClaimedDispatch} (h : claimDispatch clock id agent s = .ok (claimed, s')) :
    ∃ a, ClaimsDispatch s (clock 0) agent a claimed ∧ a.id = id ∧
      s' = s.setAttempt claimed.attempt := by
  simp only [claimDispatch, get_bind_ok, required_bind_ok, refuse_bind_ok,
    Store.haltedPairExists_iff, Store.recoverySourceRetired_iff, ne_eq, not_not] at h
  obtain ⟨a, hf, hstate, hhalt, hret, h⟩ := h
  obtain ⟨ha, hid⟩ := hc.loadAttempt_eq_some.mp hf
  obtain ⟨grant, _, hgrant, h⟩ := bind_ok.mp h
  obtain ⟨hactive, rfl⟩ := activeGrant_ok hgrant
  obtain ⟨profile, _, hprofile, h⟩ := bind_ok.mp h
  obtain ⟨hpm, hpid, hpd, rfl⟩ := pinnedProfile_ok hprofile
  obtain ⟨plan, _, hplan, h⟩ := bind_ok.mp h
  obtain ⟨hlm, hlid, hld, rfl⟩ := pinnedPlan_ok hplan
  obtain ⟨_, _, hlease, h⟩ := bind_ok.mp h
  obtain ⟨hleased, rfl⟩ := requireLeases_ok hlease
  simp only [updateAttempt, required_bind_ok, modify_bind_ok, pure_ok] at h
  obtain ⟨ordinal, _, rfl, rfl⟩ := h
  refine ⟨a, ⟨ha, hstate, hhalt, hret, hactive, ⟨hpm, hpid, hpd _ (by simp)⟩,
    ⟨hlm, hlid, hld _ (by simp)⟩, ?_, rfl, rfl, rfl⟩, hid, rfl⟩
  rintro key ⟨r, hr, rfl⟩
  exact hleased r hr

/-- The attempt with a receipt. -/
def receipted (now : Timestamp) (receipt : OperationReceipt) (a : AttemptRecord) :
    AttemptRecord :=
  { a with
    state := receipt.state
    receipt := some receipt
    updatedAt := Platform.renderTimestamp now }

theorem receipted_identity (now : Timestamp) (receipt : OperationReceipt) (a : AttemptRecord) :
    (receipted now receipt a).identity = a.identity := rfl

theorem recordReceipt_ok (hc : s.Coherent) {id : AttemptId} {receipt : OperationReceipt}
    {release : Bool} {result : AttemptRecord}
    (h : recordReceipt clock id receipt release s = .ok (result, s')) :
    ∃ a, s.Attempt a ∧ a.id = id ∧ a.state = .dispatched ∧
      result = receipted (clock 0) receipt a ∧
      ((release = true ∧ (receipt.state ≠ .rejected ∨ ¬ s.Destination a.pair) ∧
          s' = (s.setAttempt result).releaseLeases result) ∨
        (¬ (release = true ∧ (receipt.state ≠ .rejected ∨ ¬ s.Destination a.pair)) ∧
          s' = s.setAttempt result)) := by
  simp only [recordReceipt, updateAttempt, releaseLeases, get_bind_ok, required_bind_ok,
    refuse_bind_ok, modify_bind_ok, ne_eq, not_not] at h
  obtain ⟨a, hf, hstate, h⟩ := h
  obtain ⟨ha, hid⟩ := hc.loadAttempt_eq_some.mp hf
  have hdest : (s.setAttempt (receipted (clock 0) receipt a)).recoveryDestinationExists a.pair =
      false ↔ ¬ s.Destination a.pair := by
    rw [← Bool.not_eq_true, Store.recoveryDestinationExists_iff]
    rfl
  refine ⟨a, ha, hid, hstate, ?_⟩
  split_ifs at h with hrel
  · simp only [modify_bind_ok, pure_ok] at h
    obtain ⟨rfl, rfl⟩ := h
    exact ⟨rfl, Or.inl ⟨hrel.1, hrel.2.imp_right hdest.mp, rfl⟩⟩
  · obtain ⟨rfl, rfl⟩ := pure_ok.mp h
    exact ⟨rfl, Or.inr ⟨fun hc' => hrel ⟨hc'.1, hc'.2.imp_right hdest.mpr⟩, rfl⟩⟩

/-- A recorded attempt is what the recording returned. -/
theorem recordReceipt_recorded (hc : s.Coherent) {id : AttemptId} {receipt : OperationReceipt}
    {release : Bool} {result : AttemptRecord}
    (h : recordReceipt clock id receipt release s = .ok (result, s')) :
    s'.Attempt result ∧ result.id = id := by
  obtain ⟨a, ha, hid, _, rfl, ⟨_, _, rfl⟩ | ⟨_, rfl⟩⟩ := recordReceipt_ok hc h
  · exact ⟨(Store.attempt_setAttempt ha (receipted_identity _ receipt a)).mpr (Or.inl rfl), hid⟩
  · exact ⟨(Store.attempt_setAttempt ha (receipted_identity _ receipt a)).mpr (Or.inl rfl), hid⟩

/-! ### Reconciliation -/

/-- The grants after an optional charge of `granted`. -/
def Charges (s : Store) (granted : Grant) (budget : Option Budget) (grants : Table Grant.id) :
    Prop :=
  match budget with
  | none => grants = s.grants
  | some amount => ∃ remaining, granted.remaining.checkedSub amount = some remaining ∧
      grants = s.grants.replace { granted with remaining := remaining }

/-- One past the highest ordinal of the attempt's witnesses, or zero. -/
structure NextOrdinal (s : Store) (id : AttemptId) (n : ℕ) : Prop where
  above : ∀ r, s.Witness r → r.attempt = id → r.ordinal < n
  next : n ≠ 0 → ∃ r, s.Witness r ∧ r.attempt = id ∧ r.ordinal + 1 = n

omit [Platform] in
theorem nextOrdinal_ok (hc : s.Coherent) {id : AttemptId} {n : ℕ}
    (h : nextOrdinal s id = .ok (n : ℤ)) : NextOrdinal s id n := by
  have hmem : ∀ k : ℤ, k ∈ (s.reconciliations.rows.filter (fun row => row.attemptId = id)).map
      ReconciliationRow.ordinal ↔ ∃ r, s.Witness r ∧ r.attempt = id ∧ (r.ordinal : ℤ) = k := by
    intro k
    constructor
    · intro hk
      obtain ⟨row, hrow, rfl⟩ := List.mem_map.mp hk
      obtain ⟨hm, hid⟩ := List.mem_filter.mp hrow
      rw [decide_eq_true_eq, hc.reconciliations row hm] at hid
      refine ⟨row.json, hc.witness_of_mem hm, hid, ?_⟩
      rw [hc.reconciliations row hm]
      rfl
    · rintro ⟨r, hr, hid, rfl⟩
      exact List.mem_map.mpr ⟨_, List.mem_filter.mpr ⟨hr, decide_eq_true hid⟩, rfl⟩
  unfold nextOrdinal at h
  split at h
  · next hmax =>
      obtain rfl : n = 0 := by
        have := Except.ok.inj h
        omega
      rw [List.max?_eq_none_iff] at hmax
      refine ⟨fun r hr hid => ?_, fun hne => absurd rfl hne⟩
      have hin := (hmem r.ordinal).mpr ⟨r, hr, hid, rfl⟩
      rw [hmax] at hin
      cases hin
  · next k hmax =>
      split_ifs at h with hk
      have hn := Except.ok.inj h
      obtain ⟨hin, hle⟩ := List.max?_eq_some_iff.mp hmax
      obtain ⟨r, hr, hid, rfl⟩ := (hmem k).mp hin
      refine ⟨fun q hq hqid => ?_, fun _ => ⟨r, hr, hid, by omega⟩⟩
      have := hle _ ((hmem q.ordinal).mpr ⟨q, hq, hqid, rfl⟩)
      omega

/-- What a claim of a reconciliation has checked of the attempt, and the witness it opens. -/
structure ClaimsReconciliation (s : Store) (now : Timestamp) (request : RequestId)
    (principal : PrincipalId) (a : AttemptRecord) (granted : Grant)
    (claimed : ClaimedReconciliation) : Prop where
  attempt : s.Attempt a
  uncertain : a.state = .unknown ∨ a.state = .partially
  fresh : ∀ r, s.Witness r → r.request ≠ request
  inactive : ∀ r, s.Witness r → r.attempt = a.id → r.state ≠ .claimed
  grant : Active s now a.grant principal a.profile granted
  profile : claimed.dispatch.profile ∈ s.profiles ∧ claimed.dispatch.profile.id = a.profile ∧
    claimed.dispatch.profile.digest = a.profileDigest
  plan : claimed.dispatch.plan ∈ s.plans ∧ claimed.dispatch.plan.id = a.plan ∧
    claimed.dispatch.plan.digest = a.planDigest
  leased : ∀ key, a.LeaseKey key → s.Leased key a.pair
  recordRequest : claimed.record.request = request
  recordAttempt : claimed.record.attempt = a.id
  recordState : claimed.record.state = .claimed
  recordReceipt : claimed.record.receipt = none
  recordOrdinal : NextOrdinal s a.id claimed.record.ordinal

/-- The attempt under investigation: a partial effect has become an unknown one. -/
def reopened (now : Timestamp) (a : AttemptRecord) : AttemptRecord :=
  { a with state := .unknown, updatedAt := Platform.renderTimestamp now }

theorem reopened_identity (now : Timestamp) (a : AttemptRecord) :
    (reopened now a).identity = a.identity := rfl

omit [Platform] in
theorem requireInactive_ok {id : AttemptId} {u : Unit}
    (h : requireInactive id s = .ok (u, s')) :
    s.loadActiveReconciliation id = none ∧ s = s' := by
  rw [requireInactive, get_bind_ok] at h
  cases hf : s.loadActiveReconciliation id with
  | some existing =>
      rw [hf] at h
      exact absurd h throw_ok
  | none =>
      rw [hf] at h
      exact ⟨rfl, (pure_ok.mp h).2⟩

omit [Platform] in
theorem requireConfigurationAuthority_ok {a : AttemptRecord} {grant : Grant}
    {profile : CommissionedProfile} {plan : ReviewedPlan} {u : Unit}
    (h : requireConfigurationAuthority a grant profile plan s = .ok (u, s')) : s = s' := by
  simp only [requireConfigurationAuthority, required_bind_ok, refuse_ok] at h
  obtain ⟨_, _, _, _, _, _, _, rfl⟩ := h
  rfl

omit [Platform] in
theorem admitConfiguration_ok {budget : Option Budget} {a : AttemptRecord} {grant : Grant}
    {profile : CommissionedProfile} {plan : ReviewedPlan} {u : Unit}
    (h : admitConfiguration budget a grant profile plan s = .ok (u, s')) : s = s' := by
  cases budget with
  | some amount => exact requireConfigurationAuthority_ok h
  | none => exact (pure_ok.mp h).2

omit [Platform] in
theorem chargeConfiguration_ok {budget : Option Budget} {granted grant : Grant}
    (h : chargeConfiguration budget granted s = .ok (grant, s')) :
    ∃ grants, Charges s granted budget grants ∧ s' = { s with grants := grants } := by
  cases budget with
  | some amount =>
      obtain ⟨remaining, hr, _, rfl⟩ := debit_ok h
      exact ⟨_, ⟨remaining, hr, rfl⟩, rfl⟩
  | none =>
      obtain ⟨_, rfl⟩ := pure_ok.mp h
      exact ⟨_, rfl, rfl⟩

theorem reopen_ok {now : Timestamp} {a result : AttemptRecord}
    (h : reopen now a s = .ok (result, s')) :
    (a.state ≠ .partially ∧ result = a ∧ s' = s) ∨
    (a.state = .partially ∧ result = reopened now a ∧ s' = s.setAttempt (reopened now a)) := by
  unfold reopen at h
  split_ifs at h with hstate
  · simp only [updateAttempt, modify_bind_ok, pure_ok] at h
    obtain ⟨rfl, rfl⟩ := h
    exact Or.inr ⟨hstate, rfl, rfl⟩
  · obtain ⟨rfl, rfl⟩ := pure_ok.mp h
    exact Or.inl ⟨hstate, rfl, rfl⟩

theorem claimNewReconciliation_ok (hc : s.Coherent) {id : AttemptId} {request : RequestId}
    {principal : PrincipalId} {budget : Option Budget} {claimed : ClaimedReconciliation}
    (hfresh : ∀ r, s.Witness r → r.request ≠ request)
    (h : claimNewReconciliation clock id request principal budget s = .ok (claimed, s')) :
    ∃ a granted grants, ∃ reconciliations : Table ReconciliationRow.requestId,
      a.id = id ∧ ClaimsReconciliation s (clock 0) request principal a granted claimed ∧
      Charges s granted budget grants ∧
      reconciliations.rows = ReconciliationRow.of claimed.record :: s.reconciliations.rows ∧
      ((a.state = .unknown ∧ claimed.dispatch.attempt = a ∧
          s' = { s with grants := grants, reconciliations := reconciliations }) ∨
        (a.state = .partially ∧ claimed.dispatch.attempt = reopened (clock 2) a ∧
          s' = Store.setAttempt { s with grants := grants, reconciliations := reconciliations }
            (reopened (clock 2) a))) := by
  rw [claimNewReconciliation] at h
  obtain ⟨_, _, hact, hrest⟩ := bind_ok.mp h
  clear h
  obtain ⟨hinactive, rfl⟩ := requireInactive_ok hact
  clear hact
  simp only [get_bind_ok, required_bind_ok, refuse_bind_ok] at hrest
  obtain ⟨a, hf, hstate, h⟩ := hrest
  obtain ⟨ha, rfl⟩ := hc.loadAttempt_eq_some.mp hf
  obtain ⟨granted, _, hgrant, h⟩ := bind_ok.mp h
  obtain ⟨hactive, rfl⟩ := activeGrant_ok hgrant
  obtain ⟨profile, _, hprofile, h⟩ := bind_ok.mp h
  obtain ⟨hpm, hpid, hpd, rfl⟩ := pinnedProfile_ok hprofile
  obtain ⟨plan, _, hplan, h⟩ := bind_ok.mp h
  obtain ⟨hlm, hlid, hld, rfl⟩ := pinnedPlan_ok hplan
  obtain ⟨_, _, hconfig, h⟩ := bind_ok.mp h
  obtain rfl := admitConfiguration_ok hconfig
  obtain ⟨_, _, hlease, h⟩ := bind_ok.mp h
  obtain ⟨hleased, rfl⟩ := requireLeases_ok hlease
  obtain ⟨grant, _, hcharge, h⟩ := bind_ok.mp h
  obtain ⟨grants, hcharges, rfl⟩ := chargeConfiguration_ok hcharge
  rw [get_bind_ok] at h
  obtain ⟨stored, _, hstored, h⟩ := bind_ok.mp h
  obtain ⟨hnext, rfl⟩ := liftExcept_ok.mp hstored
  obtain ⟨ordinal, _, hord, h⟩ := bind_ok.mp h
  obtain ⟨hunsigned, rfl⟩ := liftExcept_ok.mp hord
  rw [storedUnsigned_ok.mp hunsigned] at hnext
  obtain ⟨index, _, hidx, h⟩ := bind_ok.mp h
  obtain ⟨hindex, rfl⟩ := liftExcept_ok.mp hidx
  rw [sqliteUnsigned_ok] at hindex
  obtain ⟨-, rfl⟩ := hindex
  obtain ⟨_, _, hinsert, h⟩ := bind_ok.mp h
  change insertReconciliation (ReconciliationRow.of (claimedRecord a.id request principal ordinal
    (Platform.renderTimestamp (clock 1)))) _ = _ at hinsert
  obtain ⟨reconciliations, hrows, hreq, _, _, rfl⟩ := insertReconciliation_ok hinsert
  obtain ⟨attempt, _, hreopen, h⟩ := bind_ok.mp h
  obtain ⟨rfl, rfl⟩ := pure_ok.mp h
  refine ⟨a, granted, grants, reconciliations, rfl, ⟨ha, ?_, hfresh, ?_, hactive,
    ⟨hpm, hpid, hpd _ (by simp)⟩, ⟨hlm, hlid, hld _ (by simp)⟩, ?_, rfl, rfl, rfl, rfl,
    nextOrdinal_ok ⟨hc.attempts, hc.reconciliations⟩ hnext⟩, hcharges, hrows, ?_⟩
  · by_contra hcon
    rw [not_or] at hcon
    exact hstate hcon
  · exact fun r hr hra => Store.loadActiveReconciliation_none hinactive hr hra
  · rintro key ⟨r, hr, rfl⟩
    exact hleased r hr
  · rcases reopen_ok hreopen with ⟨hne, rfl, rfl⟩ | ⟨hpart, rfl, rfl⟩
    · refine Or.inl ⟨?_, rfl, rfl⟩
      by_contra hcon
      exact hstate ⟨hcon, hne⟩
    · exact Or.inr ⟨hpart, rfl, rfl⟩

theorem claimReconciliation_ok (hc : s.Coherent) {id : AttemptId} {request : RequestId}
    {principal : PrincipalId} {budget : Option Budget} {claim : ReconciliationClaim}
    (h : claimReconciliation clock id request principal budget s = .ok (claim, s')) :
    (s' = s ∧ ∃ r, claim = .existing r ∧ s.Witness r ∧ r.request = request ∧ r.attempt = id) ∨
    (∃ claimed, claim = .claimed claimed ∧
      claimNewReconciliation clock id request principal budget s = .ok (claimed, s') ∧
      ∀ r, s.Witness r → r.request ≠ request) := by
  rw [claimReconciliation, get_bind_ok] at h
  cases hf : s.loadReconciliationByRequest request with
  | some r =>
      rw [hf] at h
      simp only [refuse_bind_ok, pure_ok, not_or, ne_eq, not_not] at h
      obtain ⟨⟨h1, _⟩, rfl, rfl⟩ := h
      obtain ⟨hr, hreq⟩ := hc.loadReconciliationByRequest_eq_some.mp hf
      exact Or.inl ⟨rfl, r, rfl, hr, hreq, h1⟩
  | none =>
      rw [hf] at h
      obtain ⟨claimed, _, hnew, hp⟩ := bind_ok.mp h
      obtain ⟨rfl, rfl⟩ := pure_ok.mp hp
      exact Or.inr ⟨claimed, rfl, hnew, fun r hr => hc.loadReconciliationByRequest_none hf hr⟩

/-- A witness after its reconciliation ended. -/
def finished (now : Timestamp) (receipt : Option OperationReceipt) (completed : Bool)
    (r : ReconciliationRecord) : ReconciliationRecord :=
  { r with
    receipt := receipt
    endedAt := some (Platform.renderTimestamp now)
    state := if completed then .completed else if receipt.isSome then .unknown else .failed }

/-- An attempt completed by a reconciliation. -/
def completedBy (now : Timestamp) (a : AttemptRecord) : AttemptRecord :=
  { a with state := .completed, updatedAt := Platform.renderTimestamp now }

theorem completed_identity (now : Timestamp) (a : AttemptRecord) :
    (completedBy now a).identity = a.identity := rfl

/-- How a reconciliation ends for its attempt: completed, with the lease released or kept, or
left uncertain. -/
inductive Finishes (s : Store) (now : Timestamp) (a : AttemptRecord) :
    Bool → Bool → AttemptRecord → Store → Prop
  | released : Finishes s now a true true (completedBy now a)
      ((s.setAttempt (completedBy now a)).releaseLeases (completedBy now a))
  | kept : Finishes s now a true false (completedBy now a) (s.setAttempt (completedBy now a))
  | reopened (release : Bool) : a.state = .partially →
      Finishes s now a false release (reopened now a) (s.setAttempt (reopened now a))
  | unchanged (release : Bool) : a.state ≠ .partially → Finishes s now a false release a s

theorem finishReconciliation_ok (hc : s.Coherent) {request : RequestId}
    {receipt : Option OperationReceipt} {completed release : Bool} {result : AttemptRecord}
    (h : finishReconciliation clock request receipt completed release s = .ok (result, s')) :
    ∃ r a, s.Witness r ∧ r.request = request ∧ r.state = .claimed ∧ s.Attempt a ∧
      a.id = r.attempt ∧
      Finishes (s.setReconciliation (finished (clock 0) receipt completed r)) (clock 1) a
        completed release result s' := by
  simp only [finishReconciliation, updateReconciliation, updateAttempt, releaseLeases,
    get_bind_ok, required_bind_ok, refuse_bind_ok, modify_bind_ok, ne_eq, not_not] at h
  obtain ⟨r, hf, hstate, a, hfa, h⟩ := h
  obtain ⟨hr, hreq⟩ := hc.loadReconciliationByRequest_eq_some.mp hf
  obtain ⟨ha, hid⟩ := hc.loadAttempt_eq_some.mp hfa
  refine ⟨r, a, hr, hreq, hstate, ha, hid, ?_⟩
  cases completed with
  | true =>
      cases release with
      | true =>
          simp only [if_true, modify_bind_ok, pure_ok] at h
          obtain ⟨rfl, rfl⟩ := h
          exact .released
      | false =>
          simp only [if_true, Bool.false_eq_true, if_false, modify_bind_ok, pure_ok] at h
          obtain ⟨rfl, rfl⟩ := h
          exact .kept
  | false =>
      simp only [Bool.false_eq_true, if_false] at h
      rcases reopen_ok h with ⟨hne, rfl, rfl⟩ | ⟨hpart, rfl, rfl⟩
      · exact .unchanged release hne
      · exact .reopened release hpart

end Cheirismos
