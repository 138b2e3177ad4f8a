import Cheirismos.Dispatches

/-! # Takeovers

What every run says of `takeover_recovery`.

* A takeover is answered with success as a replay of a recorded takeover, from an ordinary
  attempt that has its request id, or by a transfer.  In the first and the last case everything
  that the request asks for is on record (`Store.Fulfills`); in the second nothing of it ever is
  (`Store.Ordinary`).  So the answer can be believed exactly when the call did not meet an
  ordinary attempt (`takeover_real`).
* A transfer checks that the listed pairs together own the resources, and of a listed attempt
  only that it is uncertain or that its pair is a recovery destination (`Source`).  A
  destination that has finished its plan owns nothing and is listed all the same
  (`takeover_carriers`), and so is a completed step of a destination whose next step is
  uncertain and not listed (`takeover_names`). -/

namespace Cheirismos

open Process

variable [Platform]

/-! ### What a transfer does -/

/-- A transfer into the pair of `a`: what it asked of the listed attempts, and what it
retired. -/
structure Transferral (s s' : Store) (a : AttemptRecord) (recovery : RecoveryTakeoverRecord)
    (owners : List Pair) : Prop where
  fresh : ∀ b, s.Attempt b → b.request ≠ recovery.request
  named : ∀ id ∈ recovery.unresolved, ∃ b, Source s a.leasedResources id b ∧ b.pair ∈ owners
  owned : ∀ q ∈ owners, ∃ id ∈ recovery.unresolved, ∃ b, Source s a.leasedResources id b ∧
    b.pair = q
  retires : ∀ row, row ∈ s'.recoverySourceRetirements ↔ row ∈ s.recoverySourceRetirements ∨
    row.takeoverRequest = recovery.request ∧ row.pair ∈ owners

/-- A takeover on record after a call was there before, or it is that of the call. -/
theorem Change.takeover_origin {s s' : Store} (hg : s.Good) {call : StoreCall}
    (h : Change s call s') {t : RecoveryTakeoverRecord} (ht : t ∈ s'.recoveryTakeovers) :
    t ∈ s.recoveryTakeovers ∨ ∃ a snapshot run, call = .takeoverRecovery a snapshot run t ∧
      ∃ owners, Transferral s s' a t owners := by
  cases h with
  | records records budgets runs stocked frame =>
      rw [frame] at ht
      exact Or.inl ht
  | @takeover now a snapshot granted remaining run recovery owners leases retirements attempts
      runs takeovers proposed recovers admits named owned moves retires places runInserted
      recorded =>
      rcases (Table.mem_insert? recorded).mp ht with rfl | ht
      · refine Or.inr ⟨a, snapshot, run, rfl, owners, fun b hb => ?_, named, owned, retires⟩
        rw [recovers.request]
        exact places.request b hb
      · exact Or.inl ht
  | @abandon record s₁ leases abandonments unhalted noDestination rejects resolved settled
      released recorded =>
      have hframe := (RejectsIntent.back hg.regular.coherent rejects).2.1
      rw [hframe] at ht
      exact Or.inl ht
  | receipt attempt dispatched flag result =>
      rcases result with ⟨_, _, rfl⟩ | ⟨_, rfl⟩ <;> exact Or.inl ht
  | investigate claims configuration charges opened result =>
      rcases result with ⟨_, rfl⟩ | ⟨_, rfl⟩ <;> exact Or.inl ht
  | conclude witness claimed attempt subject flag finishes =>
      cases finishes <;> exact Or.inl ht
  | _ => exact Or.inl ht

/-! ### An ordinary attempt in the way -/

/-- The request id is that of an attempt, and of no takeover. -/
def Store.Ordinary (s : Store) (request : RequestId) : Prop :=
  (∃ a, s.Attempt a ∧ a.request = request) ∧ ∀ t ∈ s.recoveryTakeovers, t.request ≠ request

/-- A request id that an ordinary attempt has used is never taken over. -/
theorem Change.ordinary {s s' : Store} (hg : s.Good) {call : StoreCall} (h : Change s call s')
    {request : RequestId} (ho : s.Ordinary request) : s'.Ordinary request := by
  obtain ⟨⟨a, ha, hreq⟩, hnone⟩ := ho
  refine ⟨?_, fun t ht he => ?_⟩
  · obtain ⟨a', ha', hc⟩ := (h.evolves hg).attempts a ha
    exact ⟨a', ha', (AttemptRecord.request_eq hc.identity).trans hreq⟩
  · rcases h.takeover_origin hg ht with ht | ⟨_, _, _, _, _, htransfer⟩
    · exact hnone t ht he
    · exact htransfer.fresh a ha (hreq.trans he.symm)

/-- A takeover that meets an ordinary attempt is answered from it. -/
theorem takeoverRecovery_collides {s : Store} (hg : s.Good) {a : AttemptRecord}
    {snapshot : AdmissionSnapshot} {run : PlanRun} {recovery : RecoveryTakeoverRecord}
    (hcol : s.Collides a recovery) {choice : Choice} (hfault : choice.storeFault = none) :
    ∃ b, performStore (.takeoverRecovery a snapshot run recovery) choice s =
      (.ok (.existing b), s) := by
  obtain ⟨hnone, b, hb, hreq, hid, hpair⟩ := hcol
  have hc := hg.regular.coherent
  have hfind : s.recoveryTakeovers.find? recovery.request = none :=
    Table.find?_eq_none.mpr hnone
  obtain ⟨b', hload⟩ : ∃ b', s.loadAttemptByRequest a.request = some b' := by
    rw [← Option.ne_none_iff_exists']
    exact fun hn => Store.loadAttemptByRequest_none hn hb hreq
  obtain ⟨hb', hreq'⟩ := hc.loadAttemptByRequest_some hload
  obtain rfl := hg.regular.request b' b hb' hb (hreq'.trans hreq.symm)
  refine ⟨b', ?_⟩
  have htx : takeoverRecovery choice.clock a snapshot run recovery s =
      .ok (.existing b', s) := by
    rw [takeoverRecovery, get_bind_ok, hfind]
    simp only [get_bind_ok, hload]
    rw [if_pos ⟨hid, congrArg Prod.fst hpair, congrArg Prod.snd hpair⟩]
    rfl
  unfold performStore
  rw [hfault]
  simp only [StoreCall.transact, htx]

/-! ### What a request asks for -/

/-- Everything that a takeover request asks for is on record: the takeover as requested, its
run and first attempt, and a retirement of every listed attempt's pair. -/
structure Store.Fulfills (s : Store) (request : RecoveryTakeoverRequest) : Prop where
  record : ∃ t ∈ s.recoveryTakeovers, t.request = request.request ∧ t.run = request.run ∧
    t.firstAttempt = request.firstAttempt ∧ t.unresolved = request.unresolved ∧
    t.grant = request.grant ∧ t.plan = request.plan ∧
    t.justificationEvidence = request.justificationEvidence
  run : ∃ run ∈ s.runs, run.id = request.run ∧ run.pair = (request.grant, request.plan)
  first : ∃ a, s.Attempt a ∧ a.id = request.firstAttempt ∧
    a.pair = (request.grant, request.plan) ∧ a.operationIndex = 0
  retired : ∀ id ∈ request.unresolved, ∃ b, s.Attempt b ∧ b.id = id ∧
    ∃ row ∈ s.recoverySourceRetirements, row.pair = b.pair ∧
      row.takeoverRequest = request.request

omit [Platform] in
theorem Store.Fulfills.evolve {s s' : Store} {request : RecoveryTakeoverRequest}
    (h : s.Fulfills request) (he : Evolves s s') : s'.Fulfills request where
  record := by
    obtain ⟨t, ht, hrest⟩ := h.record
    exact ⟨t, he.takeovers t ht, hrest⟩
  run := by
    obtain ⟨run, hrun, hid, hpair⟩ := h.run
    obtain ⟨run', hrun', hc⟩ := he.runs run hrun
    exact ⟨run', hrun', hc.id_eq.trans hid, hc.pair_eq.trans hpair⟩
  first := by
    obtain ⟨a, ha, hid, hpair, hindex⟩ := h.first
    obtain ⟨a', ha', hc⟩ := he.attempts a ha
    exact ⟨a', ha', (AttemptRecord.id_eq hc.identity).trans hid,
      (AttemptRecord.pair_eq hc.identity).trans hpair,
      (AttemptRecord.index_eq hc.identity).trans hindex⟩
  retired id hid := by
    obtain ⟨b, hb, hbid, row, hrow, hpair, hreq⟩ := h.retired id hid
    obtain ⟨b', hb', hc⟩ := he.attempts b hb
    exact ⟨b', hb', (AttemptRecord.id_eq hc.identity).trans hbid, row,
      he.retirements row hrow, hpair.trans (AttemptRecord.pair_eq hc.identity).symm, hreq⟩

/-- A recorded takeover with the data of the request fulfills it. -/
theorem fulfills_of_recorded {s : Store} (hs : s.Regular) {request : RecoveryTakeoverRequest}
    {authority : PrincipalId} {a : AttemptRecord} {run : PlanRun}
    {recovery t : RecoveryTakeoverRecord} (hmakes : request.Makes authority a run recovery)
    (ht : t ∈ s.recoveryTakeovers) (hsame : sameRecoveryTakeover t recovery = true) :
    s.Fulfills request := by
  simp only [sameRecoveryTakeover, Bool.and_eq_true, beq_iff_eq] at hsame
  obtain ⟨⟨⟨⟨⟨⟨⟨⟨s1, s2⟩, s3⟩, s4⟩, s5⟩, s6⟩, _⟩, s8⟩, _⟩ := hsame
  obtain ⟨h1, h2, h3, h4, h5, h6, h7, _⟩ := hmakes.record
  have hpair : t.pair = (request.grant, request.plan) :=
    Prod.ext (s5.trans h5) (s6.trans h6)
  have htransferred := hs.transferred t ht
  refine ⟨⟨t, ht, s1.trans h1, s2.trans h2, s3.trans h3, s4.trans h4, s5.trans h5, s6.trans h6,
    s8.trans h7⟩, ?_, ?_, ?_⟩
  · obtain ⟨r, hr, hid, hp⟩ := htransferred.run
    exact ⟨r, hr, hid.trans (s2.trans h2), hp.trans hpair⟩
  · obtain ⟨b, hb, hid, hp, hi, _⟩ := htransferred.first
    exact ⟨b, hb, hid.trans (s3.trans h3), hp.trans hpair, hi⟩
  · intro id hid
    rw [← h4, ← s4] at hid
    obtain ⟨b, hb, hbid, row, hrow, hp, hreq⟩ := htransferred.sources id hid
    exact ⟨b, hb, hbid, row, hrow, hp, hreq.trans (s1.trans h1)⟩

/-! ### Real takeovers -/

/-- The answer to a takeover request that thread `t` made is true: with a ticket everything
requested is on record, and with an error no request of the thread has changed the store. -/
def Truthful (t : ℕ) (request : RecoveryTakeoverRequest) (past : List (Event machine))
    (s : Store) : Reply → Prop
  | .ticket (.ok _) => s.Fulfills request
  | .ticket (.error _) => ∀ e ∈ past, e.thread = t → e.after.store = e.before.store
  | _ => False

/-- The transaction of thread `t`'s takeover met an ordinary attempt with the request's own ids
and pair, under a request id that no takeover has. -/
def Collided (t : ℕ) (past : List (Event machine)) : Prop :=
  ∃ e ∈ past, e.thread = t ∧ e.choice.storeFault = none ∧
    ∃ a snapshot run recovery,
      e.request = .store (.takeoverRecovery a snapshot run recovery) ∧
        e.before.store.Collides a recovery

section runs

variable {c c' : daemon.Config} {authority : Principal} {request : RecoveryTakeoverRequest}
  {reply : Reply}

/-- The transaction of a takeover is no reading request. -/
theorem takeover_not_quiet {e : Event machine} {a : AttemptRecord} {snapshot : AdmissionSnapshot}
    {run : PlanRun} {recovery : RecoveryTakeoverRecord}
    (hr : e.request = .store (.takeoverRecovery a snapshot run recovery)) :
    ¬ Quiet e.request := by
  rw [hr]
  exact Bool.false_ne_true

/-- The transaction of a takeover that succeeded ran. -/
theorem unfaulted_of_ok {call : StoreCall} {choice : Choice} {s : Store} {output : call.Output}
    (h : (performStore call choice s).1 = .ok output) : choice.storeFault = none := by
  cases hf : choice.storeFault with
  | none => rfl
  | some fault =>
      unfold performStore at h
      rw [hf] at h
      cases h

/-- How a takeover can end: it failed and changed nothing, it was answered from an ordinary
attempt whose request id is never taken over, or everything it asked for is on record. -/
theorem takeover_cases (h : Reachable c)
    (hs : daemon.Serves c (.takeoverRecovery authority request) reply c') :
    (∃ error, reply = .ticket (.error error) ∧ Unchanged c.next c.moment c'.moment ∧
      ¬ Collided c.next c'.history) ∨
    (∃ ticket, reply = .ticket (.ok ticket) ∧ Collided c.next c'.history ∧
      c'.state.store.Ordinary request.request) ∨
    ∃ ticket, reply = .ticket (.ok ticket) ∧ ¬ Collided c.next c'.history ∧
      c'.state.store.Fulfills request := by
  have hm := (discipline_sound.sound h).inv
  have hyields := Yields.follows (Supervisor.takeoverRecovery_yields (G := .free) (t := c.next) hm
    authority request fun _ _ _ _ _ _ _ _ => trivial)
  obtain ⟨r, y, rfl, ⟨hr, hfollows⟩, hyz⟩ :=
    (yields_served h hs.toServing rfl hyields).2 reply hs.result
  have hist : History c'.history c'.state := Reachable.history (hs.toServing.reachable h)
  cases r with
  | error error =>
      have hunchanged : Unchanged c.next c.moment c'.moment := hr.later hfollows.past hyz
      refine Or.inl ⟨error, rfl, hunchanged, ?_⟩
      rintro ⟨e, he, ht, hfault, a, snapshot, run, recovery, hreq, hcol⟩
      obtain ⟨older, hsuf⟩ := exists_suffix_of_mem he
      rcases hunchanged e (mem_since_of_serving h hs.toServing he ht) ht with hq | ⟨q, err, hq, herr⟩
      · exact takeover_not_quiet hreq hq
      · rw [hreq] at hq
        cases hq
        obtain ⟨b, hb⟩ := takeoverRecovery_collides (hist.good_before hsuf) hcol hfault
        rw [hb] at herr
        cases herr
  | ok ticket =>
      obtain ⟨a, snapshot, run, recovery, outcome, hmakes, ⟨x, i, hx, hmx, hl, hok, hxy⟩, rfl⟩ := hr
      have hend := hxy.trans hyz
      have hsuf : (⟨c.next, .store (.takeoverRecovery a snapshot run recovery), i, x.state⟩ ::
          x.past) <:+ c'.history := hend.rely.past
      refine Or.inr ?_
      rcases takeoverRecovery_recorded (History.good hx).regular.coherent hl.2
        (performStore_ok hok) with ⟨_, hcol⟩ | ⟨hcol, _, t, ht, hsame⟩
      · refine Or.inl ⟨_, rfl, ⟨_, hsuf.subset List.mem_cons_self, rfl, unfaulted_of_ok hok, a,
          snapshot, run, recovery, rfl, hcol⟩, ?_⟩
        obtain ⟨hnone, b, hb, hreq, _⟩ := hcol
        have hord : x.state.store.Ordinary request.request :=
          ⟨⟨b, hb, hreq.trans hmakes.key⟩, fun t ht => hmakes.record.1 ▸ hnone t ht⟩
        exact hist.lasts (P := fun s => s.Ordinary request.request)
          (fun _ _ _ hg ho hc => hc.ordinary hg ho) hsuf hord
      · refine Or.inr ⟨_, rfl, ?_, ?_⟩
        · rintro ⟨e, he, ht', _, a', snapshot', run', recovery', hreq, hcol'⟩
          have hmem := mem_since_of_serving h hs.toServing he ht'
          rw [since_step hmx hend, List.mem_append, List.mem_cons] at hmem
          rcases hmem with hmem | rfl | hmem
          · exact takeover_not_quiet hreq (hend.quiet e hmem ht')
          · cases hreq
            exact hcol hcol'
          · exact takeover_not_quiet hreq (hmx.quiet e hmem ht')
        · have hstep := discipline_stable.inv_step i hx (Or.inl hl)
          exact (fulfills_of_recorded (History.good hstep).regular hmakes ht hsame).evolve
            hend.evolves

/-- A takeover is answered truthfully exactly when it did not meet an ordinary attempt. -/
theorem takeover_real (h : Reachable c)
    (hs : daemon.Serves c (.takeoverRecovery authority request) reply c') :
    Truthful c.next request c'.history c'.state.store reply ↔ ¬ Collided c.next c'.history := by
  rcases takeover_cases h hs with ⟨error, rfl, hunchanged, hcol⟩ | ⟨ticket, rfl, hcol, hord⟩ |
    ⟨ticket, rfl, hcol, hfulfills⟩
  · refine iff_of_true (fun e he ht => ?_) hcol
    exact hunchanged.store_eq (mem_since_of_serving h hs.toServing he ht) ht
  · refine iff_of_false (fun hfulfills => ?_) (not_not.mpr hcol)
    obtain ⟨t, ht, hreq, _⟩ := hfulfills.record
    exact hord.2 t ht hreq
  · exact iff_of_true hfulfills hcol

omit [Platform] in
open Bench in
set_option maxRecDepth 20000 in
theorem takeover_real_bench : ∃ reply,
    (@daemon Bench.platform).Serves (bench uncertain) (.takeoverRecovery operator renewed) reply
      (called uncertain (.takeoverRecovery operator renewed) lost 60) ∧
    (@Truthful Bench.platform 10 renewed
      (called uncertain (.takeoverRecovery operator renewed) lost 60).history
      (called uncertain (.takeoverRecovery operator renewed) lost 60).state.store reply ↔
      ¬ @Collided Bench.platform 10
        (called uncertain (.takeoverRecovery operator renewed) lost 60).history) := by
  obtain ⟨hup, hreplies, hnext⟩ : (bench uncertain).booting.isNone = true ∧
      ((called uncertain (.takeoverRecovery operator renewed) lost 60).reply
        (bench uncertain).next).isSome = true ∧ (bench uncertain).next = 10 := by
    decide +kernel
  obtain ⟨reply, hreply⟩ := Option.isSome_iff_exists.mp hreplies
  have hserves := called_serves hup (by trivial) hreply
  refine ⟨reply, hserves, ?_⟩
  rw [← hnext]
  exact @takeover_real Bench.platform _ _ _ _ _ (bench_reachable uncertain) hserves

omit [Platform] in
open Bench in
set_option maxRecDepth 20000 in
/-- A takeover under the ids and the pair of an ordinary attempt is answered with a ticket, and
nothing of it is on record. -/
theorem takeover_unreal : ∃ ticket,
    (@daemon Bench.platform).Serves (bench uncertain) (.takeoverRecovery operator borrowed)
      (.ticket (.ok ticket)) (called uncertain (.takeoverRecovery operator borrowed) lost 60) ∧
    ¬ (called uncertain (.takeoverRecovery operator borrowed) lost 60).state.store.Fulfills
      borrowed := by
  obtain ⟨hup, hgranted, hnone⟩ : (bench uncertain).booting.isNone = true ∧
      granted ((called uncertain (.takeoverRecovery operator borrowed) lost 60).reply
        (bench uncertain).next) = true ∧
      (called uncertain (.takeoverRecovery operator borrowed) lost
        60).state.store.recoveryTakeovers.rows.isEmpty = true := by
    decide +kernel
  obtain ⟨ticket, hreply⟩ := exists_of_granted hgranted
  refine ⟨ticket, called_serves hup (by trivial) hreply, fun hfulfills => ?_⟩
  obtain ⟨t, ht, _⟩ := hfulfills.record
  rw [Table.mem_def, List.isEmpty_iff.mp hnone] at ht
  cases ht

end runs

/-! ### What a transfer lists -/

/-- The takeover that the request has newly recorded, with its first attempt. -/
def takenOver (e : Event machine) : Option (AttemptRecord × RecoveryTakeoverRecord) :=
  match e.request with
  | .store (.takeoverRecovery a _ _ recovery) =>
      if recovery ∉ e.before.store.recoveryTakeovers.rows ∧
          recovery ∈ e.after.store.recoveryTakeovers.rows then some (a, recovery)
      else none
  | _ => none

theorem takenOver_eq_some {e : Event machine} {a : AttemptRecord}
    {recovery : RecoveryTakeoverRecord} (h : takenOver e = some (a, recovery)) :
    (∃ snapshot run, e.request = .store (.takeoverRecovery a snapshot run recovery)) ∧
      recovery ∉ e.before.store.recoveryTakeovers ∧
      recovery ∈ e.after.store.recoveryTakeovers := by
  unfold takenOver at h
  split at h
  · next a' snapshot run recovery' hr =>
      split_ifs at h with hnew
      cases h
      exact ⟨⟨snapshot, run, hr⟩, hnew⟩
  · cases h

section history

variable {past : List (Event machine)} {w : World} {e : Event machine}
  {older : List (Event machine)} {a : AttemptRecord} {recovery : RecoveryTakeoverRecord}

/-- A takeover that was newly recorded is a transfer. -/
theorem History.transferral (hist : History past w) (he : (e :: older) <:+ past)
    (hr : takenOver e = some (a, recovery)) :
    ∃ owners, Transferral e.before.store e.after.store a recovery owners := by
  obtain ⟨⟨snapshot, run, hreq⟩, hnew, hrec⟩ := takenOver_eq_some hr
  rcases (hist.changes he hreq).takeover_origin (hist.good_before he) hrec with
    hold | ⟨_, _, _, hcall, owners, h⟩
  · exact absurd hold hnew
  · cases hcall
    exact ⟨owners, h⟩

/-- Only the pairs of listed attempts are retired under the request id of a new takeover. -/
theorem History.owner_of_retired (hist : History past w) (he : (e :: older) <:+ past)
    (hr : takenOver e = some (a, recovery)) {owners : List Pair}
    (ht : Transferral e.before.store e.after.store a recovery owners) {row : RetirementRow}
    (hrow : row ∈ e.after.store.recoverySourceRetirements)
    (hreq : row.takeoverRequest = recovery.request) : row.pair ∈ owners := by
  obtain ⟨⟨snapshot, run, hcall⟩, hnew, hrec⟩ := takenOver_eq_some hr
  have hg := hist.good_before he
  refine (((ht.retires row).mp hrow).resolve_left fun hold => hnew ?_).2
  obtain ⟨t, hm, htr, _⟩ := hg.regular.source row hold
  have hm' := ((hist.changes he hcall).evolves hg).takeovers t hm
  obtain rfl := e.after.store.recoveryTakeovers.eq_of_key_eq hm' hrec (htr.trans hreq)
  exact hm

end history

/-- A pair that a takeover may list is open. -/
theorem Source.open_pair {s : Store} (hg : s.Good) {resources : OrdSet PhysicalResource}
    {id : AttemptId} {b : AttemptRecord} (h : Source s resources id b) : ¬ s.Closed b.pair := by
  rintro (hh | hr)
  · rcases h.uncertain with hu | hd
    · exact hg.unhalted_of_uncertain h.attempt hu hh
    · exact (hg.regular.halted _ hh).1 hd
  · exact h.unretired hr

/-- A listed pair owns all the resources, unless it has finished its plan and owns none. -/
theorem Source.leased_iff {s : Store} (hg : s.Good) {a b : AttemptRecord} {id : AttemptId}
    (h : Source s a.leasedResources id b) :
    (∀ key, a.LeaseKey key → s.Leased key b.pair) ↔ ¬ s.Finished b.pair := by
  have hkeys : ∀ key, b.LeaseKey key ↔ a.LeaseKey key := fun key => by
    unfold AttemptRecord.LeaseKey
    rw [h.resources]
  constructor
  · intro hall hf
    obtain ⟨key, hk⟩ := hg.regular.exists_leaseKey h.attempt
    exact hg.not_leased_of_finished hf key (hall key ((hkeys key).mp hk))
  · intro hf key hk
    rcases h.uncertain with hu | hd
    · exact hg.leased_of_unsettled h.attempt (h.open_pair hg) (Or.inr (Or.inr hu))
        ((hkeys key).mpr hk)
    · have hcase := hg.leased_or_finished h.attempt (h.open_pair hg) hd
      exact hcase.resolve_right hf key ((hkeys key).mpr hk)

section runs

variable {c : daemon.Config} {e : Event machine} {a : AttemptRecord}
  {recovery : RecoveryTakeoverRecord}

/-- The pairs of the attempts that a new takeover lists all own its resources exactly when none
of them has finished its plan. -/
theorem takeover_carriers (h : Reachable c) (he : e ∈ c.history)
    (hr : takenOver e = some (a, recovery)) :
    (∀ id ∈ recovery.unresolved, ∀ b, e.before.store.Attempt b → b.id = id →
      ∀ key, a.LeaseKey key → e.before.store.Leased key b.pair) ↔
    ∀ id ∈ recovery.unresolved, ∀ b, e.before.store.Attempt b → b.id = id →
      ¬ e.before.store.Finished b.pair := by
  obtain ⟨older, hsuf⟩ := exists_suffix_of_mem he
  have hg := h.history.good_before hsuf
  obtain ⟨owners, ht⟩ := h.history.transferral hsuf hr
  refine forall₂_congr fun id hid => forall₃_congr fun b hb hbid => ?_
  obtain ⟨b', hsource, _⟩ := ht.named id hid
  obtain rfl := Store.attempt_inj hb hsource.attempt (hbid.trans hsource.id.symm)
  exact hsource.leased_iff hg

omit [Platform] in
open Bench in
set_option maxRecDepth 20000 in
theorem takeover_carriers_bench : ∃ e ∈ (called uncertain (.takeoverRecovery operator renewed) lost
    60).history, ∃ a recovery, @takenOver Bench.platform e = some (a, recovery) ∧
    ((∀ id ∈ recovery.unresolved, ∀ b, e.before.store.Attempt b → b.id = id →
      ∀ key, a.LeaseKey key → e.before.store.Leased key b.pair) ↔
    ∀ id ∈ recovery.unresolved, ∀ b, e.before.store.Attempt b → b.id = id →
      ¬ e.before.store.Finished b.pair) := by
  obtain ⟨e, he, hnew⟩ : ∃ e ∈ (called uncertain (.takeoverRecovery operator renewed) lost
      60).history, (@takenOver Bench.platform e).isSome = true := by decide +kernel
  obtain ⟨⟨a, recovery⟩, hr⟩ := Option.isSome_iff_exists.mp hnew
  exact ⟨e, he, a, recovery, hr,
    @takeover_carriers Bench.platform _ _ _ _ (called_reachable ..) he hr⟩

/-- A listed attempt whose pair owns not all of the resources, read off the rows. -/
theorem uncarried_of_rows (h : Reachable c)
    (hrows : ∃ e ∈ c.history, ∃ p ∈ takenOver e, ∃ id ∈ p.2.unresolved,
      ∃ row ∈ e.before.store.attempts.rows, row.json.id = id ∧
      ∃ resource ∈ p.1.leasedResources.elems,
        (e.before.store.planLeases.find? resource.key).map LeaseRow.pair ≠ some row.json.pair) :
    ∃ e ∈ c.history, ∃ a recovery, takenOver e = some (a, recovery) ∧
      ∃ id ∈ recovery.unresolved, ∃ b, e.before.store.Attempt b ∧ b.id = id ∧
        ∃ key, a.LeaseKey key ∧ ¬ e.before.store.Leased key b.pair := by
  obtain ⟨e, he, ⟨a, recovery⟩, hr, id, hid, row, hrow, hjson, resource, hres, hlost⟩ := hrows
  obtain ⟨older, hsuf⟩ := exists_suffix_of_mem he
  have hb := (h.history.good_before hsuf).regular.coherent.attempt_of_mem hrow
  exact ⟨e, he, a, recovery, hr, id, hid, row.json, hb, hjson, resource.key,
    ⟨resource, hres, rfl⟩, fun hl => hlost (Store.leased_iff.mpr hl)⟩

omit [Platform] in
open Bench in
set_option maxRecDepth 20000 in
/-- A takeover lists an attempt whose pair owns nothing any more. -/
theorem takeover_uncarried : ∃ e ∈ (called spent (.takeoverRecovery operator gathered) lost
    60).history, ∃ a recovery, @takenOver Bench.platform e = some (a, recovery) ∧
    ∃ id ∈ recovery.unresolved, ∃ b, e.before.store.Attempt b ∧ b.id = id ∧
      ∃ key, a.LeaseKey key ∧ ¬ e.before.store.Leased key b.pair :=
  @uncarried_of_rows Bench.platform _ (called_reachable ..) (by decide +kernel)

/-- Every attempt with an uncertain effect whose pair a new takeover retires is listed in it,
exactly when this is so for the last attempt of every pair of which a completed attempt is
listed. -/
theorem takeover_names (h : Reachable c) (he : e ∈ c.history)
    (hr : takenOver e = some (a, recovery)) :
    (∀ u, e.before.store.Attempt u → u.state = .partially ∨ u.state = .unknown →
      (∃ row ∈ e.after.store.recoverySourceRetirements, row.pair = u.pair ∧
        row.takeoverRequest = recovery.request) → u.id ∈ recovery.unresolved) ↔
    ∀ id ∈ recovery.unresolved, ∀ b, e.before.store.Attempt b → b.id = id →
      b.state = .completed → ∀ u, e.before.store.Top u → u.pair = b.pair →
        u.state = .partially ∨ u.state = .unknown → u.id ∈ recovery.unresolved := by
  obtain ⟨older, hsuf⟩ := exists_suffix_of_mem he
  have hreg := (h.history.good_before hsuf).regular
  obtain ⟨owners, ht⟩ := h.history.transferral hsuf hr
  have htop : ∀ u, e.before.store.Attempt u → u.state = .partially ∨ u.state = .unknown →
      e.before.store.Top u := fun u hu hs =>
    hreg.top_of_not_completed hu (by rcases hs with e | e <;> rw [e] <;> decide)
  constructor
  · intro hall id hid b hb hbid _ u hu hpair hs
    obtain ⟨b', hsource, howner⟩ := ht.named id hid
    obtain rfl := Store.attempt_inj hb hsource.attempt (hbid.trans hsource.id.symm)
    exact hall u hu.1 hs ⟨⟨b.pair, recovery.request⟩, (ht.retires _).mpr (Or.inr ⟨rfl, howner⟩),
      hpair.symm, rfl⟩
  · rintro hall u hu hs ⟨row, hrow, hpair, hreq⟩
    have howner := h.history.owner_of_retired hsuf hr ht hrow hreq
    rw [hpair] at howner
    obtain ⟨id, hid, b, hsource, hbp⟩ := ht.owned _ howner
    by_cases hdone : b.state = .completed
    · exact hall id hid b hsource.attempt hsource.id hdone u (htop u hu hs) hbp.symm hs
    · -- both are the last attempt of their pair
      have hb := hreg.top_of_not_completed hsource.attempt hdone
      obtain rfl := Store.top_inj hreg.step (htop u hu hs) hb hbp.symm
      rw [hsource.id]
      exact hid

omit [Platform] in
open Bench in
set_option maxRecDepth 20000 in
theorem takeover_names_bench : ∃ e ∈ (called uncertain (.takeoverRecovery operator renewed) lost
    60).history, ∃ a recovery, @takenOver Bench.platform e = some (a, recovery) ∧
    ((∀ u, e.before.store.Attempt u → u.state = .partially ∨ u.state = .unknown →
      (∃ row ∈ (@Event.after (@surroundings Bench.platform)
          (@machine Bench.platform) e).store.recoverySourceRetirements,
        row.pair = u.pair ∧ row.takeoverRequest = recovery.request) → u.id ∈ recovery.unresolved) ↔
    ∀ id ∈ recovery.unresolved, ∀ b, e.before.store.Attempt b → b.id = id →
      b.state = .completed → ∀ u, e.before.store.Top u → u.pair = b.pair →
        u.state = .partially ∨ u.state = .unknown → u.id ∈ recovery.unresolved) := by
  obtain ⟨e, he, hnew⟩ : ∃ e ∈ (called uncertain (.takeoverRecovery operator renewed) lost
      60).history, (@takenOver Bench.platform e).isSome = true := by decide +kernel
  obtain ⟨⟨a, recovery⟩, hr⟩ := Option.isSome_iff_exists.mp hnew
  exact ⟨e, he, a, recovery, hr,
    @takeover_names Bench.platform _ _ _ _ (called_reachable ..) he hr⟩

/-- An uncertain attempt of a retired pair that is not listed, read off the rows. -/
theorem unnamed_of_rows (h : Reachable c)
    (hrows : ∃ e ∈ c.history, ∃ p ∈ takenOver e, ∃ row ∈ e.before.store.attempts.rows,
      row.json.state = .unknown ∧ ∃ old ∈ e.after.store.recoverySourceRetirements.rows,
        old.pair = row.json.pair ∧ old.takeoverRequest = p.2.request ∧
        row.json.id ∉ p.2.unresolved) :
    ∃ e ∈ c.history, ∃ a recovery, takenOver e = some (a, recovery) ∧
      ∃ u, e.before.store.Attempt u ∧ u.state = .unknown ∧
        (∃ row ∈ e.after.store.recoverySourceRetirements, row.pair = u.pair ∧
          row.takeoverRequest = recovery.request) ∧ u.id ∉ recovery.unresolved := by
  obtain ⟨e, he, ⟨a, recovery⟩, hr, row, hrow, hstate, old, hold, hpair, hreq, hid⟩ := hrows
  obtain ⟨older, hsuf⟩ := exists_suffix_of_mem he
  have hu := (h.history.good_before hsuf).regular.coherent.attempt_of_mem hrow
  exact ⟨e, he, a, recovery, hr, row.json, hu, hstate, ⟨old, hold, hpair, hreq⟩, hid⟩

omit [Platform] in
open Bench in
set_option maxRecDepth 20000 in
/-- A takeover retires the pair of an uncertain attempt that it does not list. -/
theorem takeover_unnamed : ∃ e ∈ (called relapsed (.takeoverRecovery operator forgetful) lost
    60).history, ∃ a recovery, @takenOver Bench.platform e = some (a, recovery) ∧
    ∃ u, e.before.store.Attempt u ∧ u.state = .unknown ∧
      (∃ row ∈ (@Event.after (@surroundings Bench.platform) (@machine Bench.platform)
        e).store.recoverySourceRetirements, row.pair = u.pair ∧
          row.takeoverRequest = recovery.request) ∧ u.id ∉ recovery.unresolved :=
  @unnamed_of_rows Bench.platform _ (called_reachable ..) (by decide +kernel)

end runs

end Cheirismos
