import Cheirismos.Takeovers

/-! # Repeated requests

Submissions, admissions, takeovers, abandonments and reconciliations carry a key chosen by the
client.  Once a call with a key has succeeded, the key is on record (`Call.Recorded`), and so from
then on.

* A store call under a used key keeps the store (`reserve_replayed` and the lemmas after it), so
  with the guard `Guard.harmless` every later call with the key makes harmless requests only.
* A second success would put the key on record with its own payload, and a key is on record with
  one payload.  The exception is a takeover that is answered from an ordinary attempt: it leaves
  no record of its payload, and whatever is asked under its key is answered alike.

`keys_exact` puts this together for the five kinds. -/

namespace Cheirismos

open Process

variable [Platform]

/-! ### Keys and payloads -/

/-- The kinds of requests with a key of their own. -/
inductive KeyKind where
  | submission
  | admission
  | takeover
  | abandonment
  | reconciliation
deriving DecidableEq

namespace Call

/-- The idempotency key of a call, with its kind. -/
def key : Call → Option (KeyKind × RequestId)
  | submit _ request => some (.submission, request.request)
  | admitPlan _ request => some (.admission, request.run)
  | takeoverRecovery _ request => some (.takeover, request.request)
  | abandonHaltedRun _ request => some (.abandonment, request.request)
  | reconcile _ _ request => some (.reconciliation, request)
  | _ => none

/-- The calls are of one kind and ask for the same, whoever makes them. -/
def SamePayload : Call → Call → Prop
  | submit _ request, submit _ request' => request = request'
  | admitPlan _ request, admitPlan _ request' => request = request'
  | takeoverRecovery _ request, takeoverRecovery _ request' => request = request'
  | abandonHaltedRun _ request, abandonHaltedRun _ request' => request = request'
  | reconcile _ attempt request, reconcile _ attempt' request' =>
      attempt = attempt' ∧ request = request'
  | _, _ => False

end Call

/-- The reply is an error. -/
def Reply.failed : Reply → Bool
  | done (.error _) | proposal (.error _) | plan (.error _) | submission (.error _) => true
  | ticket (.error _) | abandonment (.error _) | progress (.error _) | attempt (.error _) => true
  | attempts (.error _) => true
  | _ => false

/-- The request changes no durable record and calls no device. -/
structure Inert (e : Event machine) : Prop where
  store : e.after.store = e.before.store
  execute : ∀ dispatch, e.request ≠ .execute dispatch
  reconcile : ∀ request reconciliation, e.request ≠ .reconcile request reconciliation

theorem Harmless.inert {e : Event machine} {older : List (Event machine)}
    (h : Harmless ⟨older, e.before⟩ e.request) : Inert e := by
  have hstore : e.after.store = e.before.store := by
    rcases h with hq | ⟨q, hr, hkeep⟩
    · exact hq.store_eq e.choice e.before
    · unfold Event.after
      rw [hr]
      exact hkeep e.choice
  refine ⟨hstore, fun dispatch hr => ?_, fun request reconciliation hr => ?_⟩
  · rw [hr] at h
    rcases h with hq | ⟨q, hno, _⟩
    · exact hq
    · cases hno
  · rw [hr] at h
    rcases h with hq | ⟨q, hno, _⟩
    · exact hq
    · cases hno

/-! ### Store calls under a used key -/

section used

variable {s : Store}

/-- A call that keeps the store whenever it succeeds keeps it always. -/
theorem performStore_keeps {q : StoreCall} {i : Choice}
    (h : ∀ output s', q.transact i.clock s = .ok (output, s') → s' = s) :
    (performStore q i s).2 = s := by
  cases hr : (performStore q i s).1 with
  | error e => exact performStore_error hr
  | ok output => exact h output _ (performStore_ok hr)

theorem reserve_replayed (hg : s.Good) {a b : AttemptRecord} (hb : s.Attempt b)
    (hkey : b.request = a.request) (snapshot : AdmissionSnapshot) (i : Choice) :
    (performStore (.reserve a snapshot) i s).2 = s := by
  refine performStore_keeps fun outcome s' hok => ?_
  rcases reserve_ok hg.regular.coherent hok with ⟨rfl, _⟩ | ⟨_, hfresh, _⟩
  · rfl
  · exact absurd hkey (hfresh b hb)

theorem createRun_replayed {run r : PlanRun} (hr : r ∈ s.runs) (hid : r.id = run.id)
    (i : Choice) : (performStore (.createRun run) i s).2 = s := by
  refine performStore_keeps fun _ s' hok => ?_
  rcases insertOnce_ok hok with ⟨t, ht, _⟩ | ⟨rfl, _⟩
  · exact absurd hid ((Table.insert?_eq_some ht).1 r hr)
  · rfl

theorem takeoverRecovery_replayed (hg : s.Good) {a : AttemptRecord}
    {recovery : RecoveryTakeoverRecord} (hkey : recovery.request = a.request)
    (hused : (∃ t ∈ s.recoveryTakeovers, t.request = a.request) ∨
      ∃ b, s.Attempt b ∧ b.request = a.request)
    (snapshot : AdmissionSnapshot) (run : PlanRun) (i : Choice) :
    (performStore (.takeoverRecovery a snapshot run recovery) i s).2 = s := by
  refine performStore_keeps fun outcome s' hok => ?_
  rcases takeoverRecovery_ok hg.regular.coherent hok with ⟨rfl, _⟩ | ⟨rfl, _⟩ |
    ⟨_, hnone, hfresh, _⟩
  · rfl
  · rfl
  · rcases hused with ⟨t, ht, hreq⟩ | ⟨b, hb, hreq⟩
    · exact absurd (hreq.trans hkey.symm) (Table.find?_eq_none.mp hnone t ht)
    · exact absurd hreq (hfresh b hb)

theorem abandonHaltedRun_replayed (hg : s.Good) {record old : HaltedRunAbandonmentRecord}
    (hold : old ∈ s.haltedRunAbandonments) (hkey : old.request = record.request) (i : Choice) :
    (performStore (.abandonHaltedRun record) i s).2 = s := by
  refine performStore_keeps fun result s' hok => ?_
  rcases abandonHaltedRun_ok hok with ⟨rfl, _⟩ | ⟨_, hnew⟩
  · rfl
  · obtain ⟨_, _, abandonments, _, _, _, _, _, _, hrows, _⟩ :=
      abandonNew_ok hg.regular.coherent hnew
    have hdistinct := abandonments.distinct
    rw [hrows, List.map_cons, List.nodup_cons] at hdistinct
    exact absurd (List.mem_map.mpr ⟨old, hold, hkey⟩) hdistinct.1

theorem claimReconciliation_replayed (hg : s.Good) {request : RequestId}
    {r : ReconciliationRecord} (hr : s.Witness r) (hkey : r.request = request) (id : AttemptId)
    (principal : PrincipalId) (budget : Option Budget) (i : Choice) :
    (performStore (.claimReconciliation id request principal budget) i s).2 = s := by
  refine performStore_keeps fun claim s' hok => ?_
  rcases claimReconciliation_ok hg.regular.coherent hok with ⟨rfl, _⟩ | ⟨_, _, _, hfresh⟩
  · rfl
  · exact absurd hkey (hfresh r hr)

end used

/-! ### Keys on record -/

/-- A call that succeeded has left its key, and but for a takeover answered from an ordinary
attempt also what it asked for. -/
def Call.Recorded (s : Store) : Call → Prop
  | submit _ request => ∃ a, s.Attempt a ∧ request.Names a
  | admitPlan _ request =>
      (∃ run ∈ s.runs, run.id = request.run ∧ run.pair = (request.grant, request.plan) ∧
        run.steps.head? = some (request.firstAttempt, request.run)) ∧
      ∃ a, s.Attempt a ∧ request.first.Names a
  | takeoverRecovery _ request => s.Fulfills request ∨ s.Ordinary request.request
  | abandonHaltedRun _ request => ∃ record ∈ s.haltedRunAbandonments, request.Names record
  | reconcile _ attempt request => Supervisor.Reconciled s attempt request
  | _ => True

/-- The key is in use for its kind. -/
def Store.Keyed (s : Store) : KeyKind × RequestId → Prop
  | (.submission, id) => ∃ a, s.Attempt a ∧ a.request = id
  | (.admission, id) => (∃ run ∈ s.runs, run.id = id) ∧ ∃ a, s.Attempt a ∧ a.request = id
  | (.takeover, id) =>
      (∃ t ∈ s.recoveryTakeovers, t.request = id) ∨ ∃ a, s.Attempt a ∧ a.request = id
  | (.abandonment, id) => ∃ record ∈ s.haltedRunAbandonments, record.request = id
  | (.reconciliation, id) => ∃ r, s.Witness r ∧ r.request = id

omit [Platform] in
/-- A key stays in use. -/
theorem Store.Keyed.evolve {s s' : Store} {k : KeyKind × RequestId} (hk : s.Keyed k)
    (he : Evolves s s') : s'.Keyed k := by
  have hattempt : ∀ id, (∃ a, s.Attempt a ∧ a.request = id) → ∃ a, s'.Attempt a ∧ a.request = id := by
    rintro id ⟨a, ha, hreq⟩
    obtain ⟨a', ha', hc⟩ := he.attempts a ha
    exact ⟨a', ha', (AttemptRecord.request_eq hc.identity).trans hreq⟩
  obtain ⟨kind, id⟩ := k
  cases kind with
  | submission => exact hattempt id hk
  | admission =>
      obtain ⟨⟨run, hrun, hid⟩, ha⟩ := hk
      obtain ⟨run', hrun', hc⟩ := he.runs run hrun
      exact ⟨⟨run', hrun', hc.id_eq.trans hid⟩, hattempt id ha⟩
  | takeover => exact hk.imp (fun ⟨t, ht, hreq⟩ => ⟨t, he.takeovers t ht, hreq⟩) (hattempt id)
  | abandonment =>
      obtain ⟨record, hm, hreq⟩ := hk
      exact ⟨record, he.abandonments record hm, hreq⟩
  | reconciliation =>
      obtain ⟨r, hr, hreq⟩ := hk
      obtain ⟨r', hr', hc⟩ := he.witnesses r hr
      exact ⟨r', hr', hc.request.trans hreq⟩

section recorded

variable {c c' : daemon.Config} {q q' : Call} {reply : Reply} {k : KeyKind × RequestId}

omit [Platform] in
theorem SubmitRequest.Names.evolve {s s' : Store} (he : Evolves s s') {request : SubmitRequest}
    (h : ∃ a, s.Attempt a ∧ request.Names a) : ∃ a, s'.Attempt a ∧ request.Names a := by
  obtain ⟨a, ha, hn⟩ := h
  obtain ⟨a', ha', hc⟩ := he.attempts a ha
  exact ⟨a', ha', hn.congr hc.identity⟩

/-- What is on record of a call stays on record. -/
theorem Call.Recorded.along (h : Reachable c) (hr : daemon.Run c c')
    (hq : q.Recorded c.state.store) : q.Recorded c'.state.store := by
  have hevo := h.evolves hr
  cases q with
  | submit agent request => exact SubmitRequest.Names.evolve hevo hq
  | admitPlan agent request =>
      obtain ⟨⟨run, hrun, hid, hpair, hsteps⟩, hfirst⟩ := hq
      obtain ⟨run', hrun', hc⟩ := hevo.runs run hrun
      exact ⟨⟨run', hrun', hc.id_eq.trans hid, hc.pair_eq.trans hpair, hc.steps_eq ▸ hsteps⟩,
        SubmitRequest.Names.evolve hevo hfirst⟩
  | takeoverRecovery authority request =>
      rcases hq with hq | hq
      · exact Or.inl (hq.evolve hevo)
      · refine Or.inr (h.follows (E := fun s s' => s.Ordinary request.request →
          s'.Ordinary request.request) (fun _ ho => ho) (fun _ _ _ h h' ho => h' (h ho)) ?_ hr hq)
        exact fun d call s' hd hc ho => hc.ordinary hd.good ho
  | abandonHaltedRun authority request =>
      obtain ⟨record, hm, hn⟩ := hq
      exact ⟨record, hevo.abandonments record hm, hn⟩
  | reconcile principal attempt request => exact Supervisor.Reconciled.evolve hq hevo
  | _ => trivial

/-- A call that succeeded is on record. -/
theorem recorded_of_success (h : Reachable c) (hs : daemon.Serves c q reply c')
    (hok : reply.failed = false) : q.Recorded c'.state.store := by
  have hm := (discipline_sound.sound h).inv
  cases q with
  | submit agent request =>
      obtain ⟨r, y, rfl, hr, hyz⟩ := (yields_served h hs.toServing rfl
        (Supervisor.submit_ensures (G := .free) hm agent request
          fun _ _ _ _ _ _ => trivial)).2 reply hs.result
      cases r with
      | error e => cases hok
      | ok submission =>
          obtain ⟨a, ha, hn, _⟩ := hr submission rfl
          exact SubmitRequest.Names.evolve hyz.evolves ⟨a, ha, hn⟩
  | admitPlan agent request =>
      obtain ⟨r, y, rfl, hr, hyz⟩ := (yields_served h hs.toServing rfl
        (Supervisor.admitPlan_ensures (G := .free) hm agent request (fun _ _ _ _ _ => trivial)
          fun _ _ _ _ _ _ => trivial)).2 reply hs.result
      cases r with
      | error e => cases hok
      | ok ticket =>
          obtain ⟨⟨run, hrun, hid, _, hpair, hsteps⟩, a, ha, hn, _⟩ := hr ticket rfl
          obtain ⟨run', hrun', hc⟩ := hyz.evolves.runs run hrun
          exact ⟨⟨run', hrun', hc.id_eq.trans hid, hc.pair_eq.trans hpair, hc.steps_eq ▸ hsteps⟩,
            SubmitRequest.Names.evolve hyz.evolves ⟨a, ha, hn⟩⟩
  | takeoverRecovery authority request =>
      rcases takeover_cases h hs with ⟨error, rfl, _⟩ | ⟨_, _, _, hord⟩ | ⟨_, _, _, hfulfills⟩
      · cases hok
      · exact Or.inr hord
      · exact Or.inl hfulfills
  | abandonHaltedRun authority request =>
      obtain ⟨r, y, rfl, hr, hyz⟩ := (yields_served h hs.toServing rfl
        (Supervisor.abandonHaltedRun_ensures (G := .free) hm authority request
          fun _ _ _ _ _ => trivial)).2 reply hs.result
      cases r with
      | error e => cases hok
      | ok record =>
          obtain ⟨hrec, hn⟩ := hr record rfl
          exact ⟨record, hyz.evolves.abandonments record hrec, hn⟩
  | reconcile principal attempt request =>
      have hclaimed := fun (c₀ : WitnessClaim) (y : Moment machine) (planned : PlannedOperation)
        (configure : Bool) (hthread : c₀.thread = c.next) (hsubject : c₀.request = request)
        (_ : discipline.Inv ⟨c₀.older, c₀.before⟩) (_ : Follows c.moment ⟨c₀.older, c₀.before⟩)
        (hpast : y.past = c₀.event :: c₀.older) hplanned =>
          (Supervisor.reconcileClaimed_ensures hthread hsubject hpast hplanned :
            Ensures .free c.next y
              (Supervisor.reconcileClaimed request planned configure c₀.claimed) fun _ _ => True)
      obtain ⟨r, y, rfl, hr, hyz⟩ := (yields_served h hs.toServing rfl
        (Supervisor.reconcile_ensures (G := .free) hm principal attempt request
          (fun _ _ _ _ => trivial) hclaimed)).2 reply hs.result
      cases r with
      | error e => cases hok
      | ok a => exact Supervisor.Reconciled.evolve (hr a rfl) hyz.evolves
  | _ => trivial

omit [Platform] in
/-- The key of a call on record is in use. -/
theorem keyed_of_recorded {s : Store} (hq : q.Recorded s) (hkey : q.key = some k) :
    s.Keyed k := by
  cases q with
  | submit agent request =>
      cases hkey
      obtain ⟨a, ha, hn⟩ := hq
      exact ⟨a, ha, hn.key⟩
  | admitPlan agent request =>
      cases hkey
      obtain ⟨⟨run, hrun, hid, _⟩, a, ha, hn⟩ := hq
      exact ⟨⟨run, hrun, hid⟩, a, ha, hn.key⟩
  | takeoverRecovery authority request =>
      cases hkey
      rcases hq with hq | hq
      · obtain ⟨t, ht, hreq, _⟩ := hq.record
        exact Or.inl ⟨t, ht, hreq⟩
      · exact Or.inr hq.1
  | abandonHaltedRun authority request =>
      cases hkey
      obtain ⟨record, hm, hn⟩ := hq
      exact ⟨record, hm, hn.key⟩
  | reconcile principal attempt request =>
      cases hkey
      obtain ⟨r, hr, hreq, _⟩ := hq
      exact ⟨r, hr, hreq⟩
  | _ => cases hkey

/-- A call with a key in use makes harmless requests only. -/
theorem inert_of_keyed (h : Reachable c) (hk : c.state.store.Keyed k) (hkey : q.key = some k)
    (hs : daemon.Serving c q c') : ∀ e ∈ c'.history, e.thread = c.next → Inert e := by
  have hm := (discipline_sound.sound h).inv
  suffices hguard : ∀ e older, (e :: older) <:+ c'.history → e.thread = c.next →
      Guard.harmless.allows c.next ⟨older, e.before⟩ e.request by
    intro e he ht
    obtain ⟨older, hsuf⟩ := exists_suffix_of_mem he
    exact (hguard e older hsuf ht).inert
  -- the key is still in use at any later moment of the call
  have hlater : ∀ y, Follows c.moment y → y.state.store.Keyed k := fun y hf => hk.evolve hf.evolves
  cases q with
  | submit agent request =>
      cases hkey
      refine (yields_served h hs rfl (Supervisor.submit_ensures (G := .harmless) hm agent request
        fun y a snapshot hy hf hn => Or.inr ⟨_, rfl, fun i => ?_⟩)).1
      obtain ⟨b, hb, hreq⟩ := hlater y hf
      exact reserve_replayed (History.good hy) hb (hreq.trans hn.key.symm) snapshot i
  | admitPlan agent request =>
      cases hkey
      refine (yields_served h hs rfl (Supervisor.admitPlan_ensures (G := .harmless) hm agent request
        (fun y run hy hf hid => Or.inr ⟨_, rfl, fun i => ?_⟩)
        fun y a snapshot hy hf hn => Or.inr ⟨_, rfl, fun i => ?_⟩)).1
      · obtain ⟨⟨r, hr, hrid⟩, _⟩ := hlater y hf
        exact createRun_replayed hr (hrid.trans hid.symm) i
      · obtain ⟨_, b, hb, hreq⟩ := hlater y hf
        exact reserve_replayed (History.good hy) hb (hreq.trans hn.key.symm) snapshot i
  | takeoverRecovery authority request =>
      cases hkey
      refine (yields_served h hs rfl (Supervisor.takeoverRecovery_yields (G := .harmless) hm
        authority request fun y a snapshot run recovery hy hf hmakes =>
          Or.inr ⟨_, rfl, fun i => ?_⟩)).1
      refine takeoverRecovery_replayed (History.good hy)
        (hmakes.record.1.trans hmakes.key.symm) ?_ snapshot run i
      rw [hmakes.key]
      exact hlater y hf
  | abandonHaltedRun authority request =>
      cases hkey
      refine (yields_served h hs rfl (Supervisor.abandonHaltedRun_ensures (G := .harmless) hm
        authority request fun y record hy hf hn => Or.inr ⟨_, rfl, fun i => ?_⟩)).1
      obtain ⟨old, hold, hreq⟩ := hlater y hf
      exact abandonHaltedRun_replayed (History.good hy) hold (hreq.trans hn.key.symm) i
  | reconcile principal attempt request =>
      cases hkey
      refine (yields_served h hs rfl (Supervisor.reconcile_ensures (G := .harmless) hm principal
        attempt request (fun y budget hy hf => Or.inr ⟨_, rfl, fun i => ?_⟩) ?_)).1
      · obtain ⟨r, hr, hreq⟩ := hlater y hf
        exact claimReconciliation_replayed (History.good hy) hr hreq attempt principal.id budget i
      · -- a claim under the request would have found it unused
        intro c₀ y planned configure _ hsubject hinv hf _ _
        obtain ⟨_, _, _, _, _, hclaims, _⟩ := c₀.spec (History.good hinv)
        obtain ⟨r, hr, hreq⟩ := hlater _ hf
        exact absurd (hreq.trans hsubject.symm) (hclaims.fresh r hr)
  | _ => cases hkey

omit [Platform] in
/-- An attempt has one submission. -/
theorem SubmitRequest.Names.unique {request request' : SubmitRequest} {a : AttemptRecord}
    (h : request.Names a) (h' : request'.Names a) : request = request' := by
  have hpair : (request.grant, request.plan) = (request'.grant, request'.plan) :=
    h.pair.symm.trans h'.pair
  obtain ⟨attempt, key, grant, plan, index⟩ := request
  obtain ⟨attempt', key', grant', plan', index'⟩ := request'
  obtain ⟨rfl, rfl⟩ := Prod.mk.inj hpair
  obtain rfl : attempt = attempt' := h.id.symm.trans h'.id
  obtain rfl : key = key' := h.key.symm.trans h'.key
  obtain rfl : index = index' := h.index.symm.trans h'.index
  rfl

omit [Platform] in
/-- A record of an abandonment has one request. -/
theorem HaltedRunAbandonmentRequest.Names.unique {request request' : HaltedRunAbandonmentRequest}
    {record : HaltedRunAbandonmentRecord} (h : request.Names record) (h' : request'.Names record) :
    request = request' := by
  obtain ⟨h1, h2, h3, h4, h5⟩ := h
  obtain ⟨h1', h2', h3', h4', h5'⟩ := h'
  cases request
  cases request'
  simp only [HaltedRunAbandonmentRequest.mk.injEq]
  exact ⟨h1.symm.trans h1', h2.symm.trans h2', h3.symm.trans h3', h4.symm.trans h4',
    h5.symm.trans h5'⟩

omit [Platform] in
/-- A recorded takeover has one request. -/
theorem fulfilled_request {s : Store} {request request' : RecoveryTakeoverRequest}
    (h : s.Fulfills request) (h' : s.Fulfills request') (hkey : request.request = request'.request) :
    request = request' := by
  obtain ⟨t, ht, h1, h2, h3, h4, h5, h6, h7⟩ := h.record
  obtain ⟨t', ht', h1', h2', h3', h4', h5', h6', h7'⟩ := h'.record
  obtain rfl := s.recoveryTakeovers.eq_of_key_eq ht ht' (h1.trans (hkey.trans h1'.symm))
  cases request
  cases request'
  simp only [RecoveryTakeoverRequest.mk.injEq]
  exact ⟨h1.symm.trans h1', h2.symm.trans h2', h3.symm.trans h3', h4.symm.trans h4',
    h5.symm.trans h5', h6.symm.trans h6', h7.symm.trans h7'⟩

/-- A key is on record with one payload, but for takeovers. -/
theorem payload_of_recorded {s : Store} (hs : s.Regular) (hq : q.Recorded s)
    (hq' : q'.Recorded s) (hkey : q.key = some k) (hkey' : q'.key = some k)
    (hkind : k.1 ≠ .takeover) : q.SamePayload q' := by
  have hsame : q.key = q'.key := hkey.trans hkey'.symm
  cases q with
  | submit agent request =>
      cases q' with
      | submit agent' request' =>
          obtain ⟨a, ha, hn⟩ := hq
          obtain ⟨a', ha', hn'⟩ := hq'
          have hreq : request.request = request'.request := congrArg Prod.snd (Option.some.inj hsame)
          obtain rfl := hs.request a a' ha ha' (hn.key.trans (hreq.trans hn'.key.symm))
          exact hn.unique hn'
      | _ => simp [Call.key] at hsame
  | admitPlan agent request =>
      cases q' with
      | admitPlan agent' request' =>
          obtain ⟨⟨run, hrun, hid, hpair, hsteps⟩, _⟩ := hq
          obtain ⟨⟨run', hrun', hid', hpair', hsteps'⟩, _⟩ := hq'
          have hreq : request.run = request'.run := congrArg Prod.snd (Option.some.inj hsame)
          obtain rfl := s.runs.eq_of_key_eq hrun hrun' (hid.trans (hreq.trans hid'.symm))
          have hfirst := Option.some.inj (hsteps.symm.trans hsteps')
          have hboth := hpair.symm.trans hpair'
          obtain ⟨run₀, attempt, grant, plan⟩ := request
          obtain ⟨run₀', attempt', grant', plan'⟩ := request'
          obtain ⟨rfl, rfl⟩ := Prod.mk.inj hfirst
          obtain ⟨rfl, rfl⟩ := Prod.mk.inj hboth
          rfl
      | _ => simp [Call.key] at hsame
  | takeoverRecovery authority request =>
      cases hkey
      exact absurd rfl hkind
  | abandonHaltedRun authority request =>
      cases q' with
      | abandonHaltedRun authority' request' =>
          obtain ⟨record, hm, hn⟩ := hq
          obtain ⟨record', hm', hn'⟩ := hq'
          have hreq : request.request = request'.request := congrArg Prod.snd (Option.some.inj hsame)
          obtain rfl := s.haltedRunAbandonments.eq_of_key_eq hm hm'
            (hn.key.trans (hreq.trans hn'.key.symm))
          exact hn.unique hn'
      | _ => simp [Call.key] at hsame
  | reconcile principal attempt request =>
      cases q' with
      | reconcile principal' attempt' request' =>
          obtain ⟨r, hr, hreq, hid⟩ := hq
          obtain ⟨r', hr', hreq', hid'⟩ := hq'
          have hboth : request = request' := congrArg Prod.snd (Option.some.inj hsame)
          obtain rfl := Store.witness_inj hr hr' (hreq.trans (hboth.trans hreq'.symm))
          exact ⟨hid.symm.trans hid', hboth⟩
      | _ => simp [Call.key] at hsame
  | _ => cases hkey

end recorded

/-! ### Exact keys -/

section runs

variable {c c' d d' : daemon.Config} {q q' : Call} {reply : Reply} {k : KeyKind × RequestId}

/-- Once a call with a key has succeeded, a later call with the key changes no durable record and
calls no device; and unless it asks for the same it fails, exactly when it is not a takeover that
met an ordinary attempt. -/
theorem keys_exact (h : Reachable c) (hs : daemon.Serves c q reply c')
    (hok : reply.failed = false) (hr : daemon.Run c' d) (hs' : daemon.Serving d q' d')
    (hkey : q.key = some k) (hkey' : q'.key = some k) :
    (∀ e ∈ d'.history, e.thread = d.next → Inert e) ∧
    ∀ reply', d'.threads d.next = some (.pure reply') →
      ((q.SamePayload q' ∨ reply'.failed = true) ↔
        (q.SamePayload q' ∨ k.1 ≠ .takeover ∨ ¬ Collided d.next d'.history)) := by
  have h₁ : Reachable c' := hs.toServing.reachable h
  have hd : Reachable d := Process.Service.Reachable.run h₁ hr
  have hrun : daemon.Run d d' := hs'.along
  have hd' : Reachable d' := Process.Service.Reachable.run hd hrun
  have hq : q.Recorded d.state.store := (recorded_of_success h hs hok).along h₁ hr
  have hlast : q.Recorded d'.state.store := hq.along hd hrun
  refine ⟨inert_of_keyed hd (keyed_of_recorded hq hkey) hkey' hs', fun reply' hreply => ?_⟩
  have hserves : daemon.Serves d q' reply' d' := ⟨hs', hreply⟩
  by_cases hkind : k.1 = .takeover
  · simp only [hkind, ne_eq, not_true_eq_false, false_or]
    cases q' with
    | takeoverRecovery authority request =>
        rcases takeover_cases hd hserves with ⟨error, rfl, _, hcol⟩ | ⟨ticket, rfl, hcol, _⟩ |
          ⟨ticket, rfl, hcol, hfulfills⟩
        · simp [hcol, Reply.failed]
        · simp [hcol, Reply.failed]
        · -- the first takeover is on record too, so it asked for the same
          refine iff_of_true (Or.inl ?_) (Or.inr hcol)
          cases q with
          | takeoverRecovery authority' request' =>
              have hreq : request'.request = request.request :=
                congrArg Prod.snd (Option.some.inj (hkey.trans hkey'.symm))
              rcases hlast with hlast | hord
              · exact fulfilled_request hlast hfulfills hreq
              · obtain ⟨t, ht, htr, _⟩ := hfulfills.record
                exact absurd (htr.trans hreq.symm) (hord.2 t ht)
          | _ =>
              have hsame := hkey.trans hkey'.symm
              simp [Call.key] at hsame
    | _ =>
        cases hkey' <;> simp at hkind
  · refine iff_of_true ?_ (Or.inr (Or.inl hkind))
    by_cases hfailed : reply'.failed = true
    · exact Or.inr hfailed
    · have hq' := recorded_of_success hd hserves (Bool.not_eq_true _ ▸ hfailed)
      exact Or.inl (payload_of_recorded hd'.good.regular hlast hq' hkey hkey' hkind)

omit [Platform] in
open Bench in
set_option maxRecDepth 20000 in
theorem keys_exact_bench :
    (∃ ticket, (called (uncertain ++ serving 10 (.takeoverRecovery operator renewed) lost)
      (.takeoverRecovery operator renewed) lost 60).reply 11 = some (.ticket (.ok ticket))) ∧
    ∀ e ∈ (called (uncertain ++ serving 10 (.takeoverRecovery operator renewed) lost)
      (.takeoverRecovery operator renewed) lost 60).history, e.thread = 11 →
      @Inert Bench.platform e := by
  obtain ⟨hup, hgranted, hfirst, hup', hgranted', hnext⟩ :
      (bench uncertain).booting.isNone = true ∧
        granted ((called uncertain (.takeoverRecovery operator renewed) lost 60).reply
          (bench uncertain).next) = true ∧ (bench uncertain).next = 10 ∧
        (bench (uncertain ++ serving 10 (.takeoverRecovery operator renewed)
          lost)).booting.isNone = true ∧
        granted ((called (uncertain ++ serving 10 (.takeoverRecovery operator renewed) lost)
          (.takeoverRecovery operator renewed) lost 60).reply
          (bench (uncertain ++ serving 10 (.takeoverRecovery operator renewed) lost)).next) = true ∧
        (bench (uncertain ++ serving 10 (.takeoverRecovery operator renewed) lost)).next = 11 := by
    decide +kernel
  obtain ⟨ticket, hreply⟩ := exists_of_granted hgranted
  have hserves := called_serves hup (by trivial) hreply
  obtain ⟨ticket', hreply'⟩ := exists_of_granted hgranted'
  have hserves' := called_serves hup' (by trivial) hreply'
  have hexact := @keys_exact Bench.platform _ _ _ _ _ _ _ (.takeover, r₂) (bench_reachable _)
    hserves rfl (called_run hfirst) hserves'.toServing rfl rfl
  rw [hnext] at hexact hreply'
  exact ⟨⟨ticket', hreply'⟩, hexact.1⟩

omit [Platform] in
open Bench in
set_option maxRecDepth 20000 in
/-- Two takeovers with one request id and different runs are both answered with a ticket. -/
theorem keys_inexact : ∃ ticket ticket',
    (@daemon Bench.platform).Serves (bench uncertain) (.takeoverRecovery operator borrowed)
      (.ticket (.ok ticket)) (called uncertain (.takeoverRecovery operator borrowed) lost 60) ∧
    (@daemon Bench.platform).Run (called uncertain (.takeoverRecovery operator borrowed) lost 60)
      (bench (uncertain ++ serving 10 (.takeoverRecovery operator borrowed) lost)) ∧
    (@daemon Bench.platform).Serves
      (bench (uncertain ++ serving 10 (.takeoverRecovery operator borrowed) lost))
      (.takeoverRecovery operator disguised) (.ticket (.ok ticket'))
      (called (uncertain ++ serving 10 (.takeoverRecovery operator borrowed) lost)
        (.takeoverRecovery operator disguised) lost 60) ∧
    borrowed.request = disguised.request ∧ borrowed ≠ disguised := by
  obtain ⟨hup, hgranted, hfirst, hup', hgranted'⟩ :
      (bench uncertain).booting.isNone = true ∧
        granted ((called uncertain (.takeoverRecovery operator borrowed) lost 60).reply
          (bench uncertain).next) = true ∧ (bench uncertain).next = 10 ∧
        (bench (uncertain ++ serving 10 (.takeoverRecovery operator borrowed)
          lost)).booting.isNone = true ∧
        granted ((called (uncertain ++ serving 10 (.takeoverRecovery operator borrowed) lost)
          (.takeoverRecovery operator disguised) lost 60).reply (bench (uncertain ++
            serving 10 (.takeoverRecovery operator borrowed) lost)).next) = true := by
    decide +kernel
  obtain ⟨ticket, hreply⟩ := exists_of_granted hgranted
  obtain ⟨ticket', hreply'⟩ := exists_of_granted hgranted'
  refine ⟨ticket, ticket', called_serves hup (by trivial) hreply, called_run hfirst,
    called_serves hup' (by trivial) hreply', rfl, ?_⟩
  intro h
  have hrun : r₃ = r₄ := congrArg RecoveryTakeoverRequest.run h
  revert hrun
  decide

end runs

end Cheirismos
